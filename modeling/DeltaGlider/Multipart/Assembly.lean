import Mathlib.Data.List.Forall2
import DeltaGlider.Multipart.Accounting
import DeltaGlider.Lib.Digest

/-!
# Assembling a completed multipart upload

`complete` hands the engine the requested parts' bytes, concatenated;
`complete_passthrough` hands it either the same bytes as chunks or the
parts' relay files in request order, with the total size it declares.  This
module proves the two agree, over every store a run can reach.

* Where the parts keep their bytes (`PartsStored`): an upload that is
  relayed holds only relay files, and a part kept in memory has its length
  as its size.  Every call keeps this (`AllPartsStored.step`), so every
  reachable store has it (`allPartsStored_of_reachable`).  A promotion that
  fails half-way leaves some parts in files and the strategy in memory, and
  both completes then load every part.
* The part loop (`validateLoop_cons_ok`, `validateLoop_ok`): an accepted list
  names, in order, parts whose MD5 the requested ETags give; the loop sums
  their sizes, concatenates their MD5s and, when it hydrates, the bytes each
  part holds (`PartData.Holds`).  Without hydrating it accepts the same list
  with the same totals (`validateLoop_unhydrated`).
* `multipart_assembly_agrees`: the data of a successful `complete` is the
  requested parts' bytes in request order, its ETag the MD5 of their MD5s;
  `complete_passthrough` succeeds on the same store with the same ETag and a
  payload whose contents are that data, and its `total_size` is the data's
  length whenever the relay files that pass their MD5 check have their
  parts' sizes.
* `multipart_assembly_exact`: with relay files that read back bytes of their
  parts' sizes, as a file system that returns what was written does, the
  declared total is the data's length.  The files are checked by MD5 alone,
  never by length, so without that a file replaced by other bytes with the
  part's MD5 is assembled in the part's place.
-/

namespace DeltaGlider.Multipart

open RustStd KeyMap

/-! ## Where the parts keep their bytes -/

/-- The bytes part `p` holds in `env`: its bytes in memory, or what its
relay file reads back, which must have the part's recorded MD5. -/
def PartData.Holds (env : MultipartEnv) (p : PartData) (bytes : List UInt8) : Prop :=
  match p.payload with
  | .inMemory b => bytes = b
  | .relayedFile path => env.fs.read path = .ok bytes ∧ env.md5 bytes = p.md5Raw

theorem loadBytes_eq_ok_iff {env : MultipartEnv} {p : PartData} {bytes : List UInt8} :
    p.payload.loadBytes env p.md5Raw = .ok bytes ↔ p.Holds env bytes := by
  unfold PartData.Holds PartPayload.loadBytes readRelayedPart
  cases p.payload with
  | inMemory b => exact ⟨fun h => (Except.ok.inj h).symm, fun h => h ▸ rfl⟩
  | relayedFile path =>
    dsimp only
    cases hread : env.fs.read path with
    | error e => simp
    | ok b =>
      dsimp only
      by_cases hmd5 : env.md5 b = p.md5Raw
      · rw [if_pos hmd5]
        constructor
        · intro h
          cases h
          exact ⟨rfl, hmd5⟩
        · exact fun h => by rw [Except.ok.inj h.1]
      · simp only [hmd5, if_false, reduceCtorEq, false_iff, not_and]
        rintro ⟨⟩
        exact hmd5

/-- Where an upload's parts keep their bytes, as every run leaves them. -/
structure PartsStored (u : MultipartUpload) : Prop where
  /-- A part kept in memory has its length as its size. -/
  inMemory_size : ∀ n p bytes, u.parts.lookup n = some p → p.payload = .inMemory bytes →
    p.size = bytes.length
  /-- A relayed upload keeps every part in a relay file. -/
  relayed : u.relayStrategy.isInMemory = false → ∀ n p, u.parts.lookup n = some p →
    ∃ path, p.payload = .relayedFile path

/-- Every tracked upload keeps its parts so. -/
def AllPartsStored (st : MultipartStore) : Prop :=
  ∀ uploadId u, st.uploads.lookup uploadId = some u → PartsStored u

section Upload

variable {u : MultipartUpload}

theorem PartsStored.of_parts_eq_empty (h : u.parts = ∅) : PartsStored u where
  inMemory_size _ _ _ hp := by rw [h] at hp; cases hp
  relayed _ _ _ hp := by rw [h] at hp; cases hp

/-- A part that `promote_upload_to_relay` rewrote is in a relay file. -/
theorem relayPart_relayed {fs : RelayFs} {relayDir : String} {n : Nat} {p p' : PartData}
    (h : relayPart fs relayDir n p = .ok p') : ∃ path, p'.payload = .relayedFile path := by
  unfold relayPart at h
  split at h
  · cases hw : writePartFile fs relayDir n _ with
    | error e => rw [hw] at h; cases h
    | ok _ => rw [hw] at h; cases h; exact ⟨_, rfl⟩
  · rename_i path hpath
    cases h
    exact ⟨path, hpath⟩

/-- A promotion, finished or stopped half-way: each part is as it was or in
its relay file, and the strategy becomes relayed only once every part is. -/
theorem PartsStored.promote (hu : PartsStored u) (env : MultipartEnv) :
    PartsStored (promoteUploadToRelay env u).1 := by
  unfold promoteUploadToRelay
  dsimp only
  split
  · exact hu
  · -- each part after the loop is `relayPart`'s answer or the part as it was
    have hparts : ∀ n p', (updateEach (relayPart env.fs (relayDirForUpload env.relayRoot u.uploadId))
        u.parts).1.lookup n = some p' → ∃ p, u.parts.lookup n = some p ∧
          ((∃ path, p'.payload = .relayedFile path) ∨
            (p' = p ∧ (updateEach (relayPart env.fs (relayDirForUpload env.relayRoot u.uploadId))
              u.parts).2 ≠ .ok ())) := by
      intro n p' hp'
      obtain ⟨p, hp, hf | hkept⟩ := lookup_updateEach_eq_some hp'
      · exact ⟨p, hp, .inl (relayPart_relayed hf)⟩
      · exact ⟨p, hp, .inr hkept⟩
    split <;> rename_i parts res hres <;> rw [hres] at hparts <;> dsimp only at hparts ⊢
    · -- stopped: the strategy is the upload's own
      refine ⟨fun n p' bytes hp' hpay => ?_, fun hrel n p' hp' => ?_⟩
      · obtain ⟨p, hp, ⟨path, hpath⟩ | ⟨rfl, -⟩⟩ := hparts n p' hp'
        · rw [hpath] at hpay; cases hpay
        · exact hu.inMemory_size n p' bytes hp hpay
      · obtain ⟨p, hp, hrelayed | ⟨rfl, -⟩⟩ := hparts n p' hp'
        · exact hrelayed
        · exact hu.relayed hrel n p' hp
    · -- finished: every part went through `relayPart`
      refine ⟨fun n p' bytes hp' hpay => ?_, fun _ n p' hp' => ?_⟩
      · obtain ⟨p, -, ⟨path, hpath⟩ | ⟨-, hne⟩⟩ := hparts n p' hp'
        · rw [hpath] at hpay; cases hpay
        · exact absurd rfl hne
      · obtain ⟨p, -, hrelayed | ⟨-, hne⟩⟩ := hparts n p' hp'
        · exact hrelayed
        · exact absurd rfl hne

/-- The payload an `UploadPart` gives its part: the data itself on an
in-memory upload, a relay file on a relayed one. -/
theorem partPayload_cases {fs : RelayFs} {strategy : RelayStrategy} {n : Nat} {data : List UInt8}
    {payload : PartPayload} (h : partPayload fs strategy n data = .ok payload) :
    (strategy.isInMemory = true ∧ payload = .inMemory data) ∨ ∃ path, payload = .relayedFile path := by
  unfold partPayload at h
  split at h
  · exact .inl ⟨rfl, (Except.ok.inj h).symm⟩
  · cases hw : writePartFile fs _ n data with
    | error e => rw [hw] at h; cases h
    | ok _ => rw [hw] at h; exact .inr ⟨_, (Except.ok.inj h).symm⟩

/-- The new part of an `UploadPart`, with the payload the upload's strategy
gives it. -/
theorem PartsStored.insertPart (hu : PartsStored u) {fs : RelayFs} {n : Nat} {data : List UInt8}
    {part : PartData} (hpayload : partPayload fs u.relayStrategy n data = .ok part.payload)
    (hsize : part.size = data.length) (now : Int) :
    PartsStored { u with parts := u.parts.insert n part, lastActivity := now } := by
  constructor
  · intro n' p bytes hp hpay
    by_cases hn : n' = n
    · subst hn
      rw [AList.lookup_insert, Option.some_inj] at hp
      subst hp
      rcases partPayload_cases hpayload with ⟨-, hdata⟩ | ⟨path, hpath⟩
      · rw [hpay, PartPayload.inMemory.injEq] at hdata
        rw [hsize, hdata]
      · rw [hpay] at hpath
        cases hpath
    · rw [AList.lookup_insert_ne hn] at hp
      exact hu.inMemory_size n' p bytes hp hpay
  · intro hrel n' p hp
    by_cases hn : n' = n
    · subst hn
      rw [AList.lookup_insert, Option.some_inj] at hp
      subst hp
      rcases partPayload_cases hpayload with ⟨hmem, -⟩ | hrelayed
      · exact absurd hmem (by rw [hrel]; decide)
      · exact hrelayed
    · rw [AList.lookup_insert_ne hn] at hp
      exact hu.relayed hrel n' p hp

/-- A change that keeps the parts and the strategy. -/
theorem PartsStored.of_eq (hu : PartsStored u) {u' : MultipartUpload} (hparts : u'.parts = u.parts)
    (hstrategy : u'.relayStrategy = u.relayStrategy) : PartsStored u' where
  inMemory_size n p bytes hp := hu.inMemory_size n p bytes (hparts ▸ hp)
  relayed hrel n p hp := hu.relayed (hstrategy ▸ hrel) n p (hparts ▸ hp)

end Upload

/-! ## Every call keeps it -/

section Calls

variable {lim : MultipartLimits} {env : MultipartEnv} {st : MultipartStore}
  {uploadId bucket key : String}

/-! `AllPartsStored` is `EveryUpload` of `PartsStored`: the map operations
keep it by the lemmas of `Multipart.Calls`. -/

theorem AllPartsStored.new : AllPartsStored MultipartStore.new := EveryUpload.new

theorem AllPartsStored.insert (hs : AllPartsStored st) {u : MultipartUpload} (hu : PartsStored u)
    (inFlightBytes : Int) : AllPartsStored ⟨st.uploads.insert uploadId u, inFlightBytes⟩ :=
  EveryUpload.insert hs hu inFlightBytes

theorem AllPartsStored.modifyUpload (hs : AllPartsStored st) {f : MultipartUpload → MultipartUpload}
    (hf : ∀ u, (f u).parts = u.parts ∧ (f u).relayStrategy = u.relayStrategy) :
    AllPartsStored (st.modifyUpload uploadId f) :=
  EveryUpload.modifyUpload hs fun u hu => hu.of_eq (hf u).1 (hf u).2

theorem AllPartsStored.uploadPart (hs : AllPartsStored st) {n : Nat} {data : List UInt8} :
    AllPartsStored (Multipart.uploadPart lim env uploadId bucket key n data st).2 := by
  generalize hc : Multipart.uploadPart lim env uploadId bucket key n data st = r
  obtain ⟨res, st'⟩ := r
  rcases uploadPart_cases hc with ⟨rfl, -⟩ | ⟨u, u', hu, -, -, hpromoted, -, rfl⟩ |
    ⟨u, u', part, hu, -, -, hfrom, hsize, hpayload, -, -, -, rfl⟩
  · exact hs
  · -- a promotion stopped half-way
    exact hs.insert (hpromoted ▸ (hs _ u hu).promote env) _
  · -- the part inserted into the upload as it was, or as the promotion left it
    have hu' : PartsStored u' := by
      rcases hfrom with rfl | hpro
      · exact hs _ _ hu
      · have h := (hs _ u hu).promote env
        rwa [hpro] at h
    exact hs.insert (hu'.insertPart hpayload hsize env.now) _

theorem AllPartsStored.createWithRelayPolicy (hs : AllPartsStored st) {randomBytes : List UInt8}
    {contentType : Option String} {userMetadata : UserMeta} {threshold : Option Nat}
    {alwaysRelay : Bool} :
    AllPartsStored (Multipart.createWithRelayPolicy lim env randomBytes bucket key contentType
      userMetadata threshold alwaysRelay st).2 := by
  generalize hc : Multipart.createWithRelayPolicy lim env randomBytes bucket key contentType
    userMetadata threshold alwaysRelay st = r
  obtain ⟨res, st'⟩ := r
  rcases createWithRelayPolicy_cases hc with ⟨rfl, -⟩ | ⟨u, hempty, -, -, rfl⟩
  · exact hs
  · exact hs.insert (PartsStored.of_parts_eq_empty hempty) _

theorem AllPartsStored.complete (hs : AllPartsStored st) {requestedParts : List (Nat × String)} :
    AllPartsStored (Multipart.complete lim env uploadId bucket key requestedParts st).2 := by
  generalize hc : Multipart.complete lim env uploadId bucket key requestedParts st = r
  obtain ⟨res, st'⟩ := r
  rcases complete_cases hc with ⟨rfl, -⟩ | ⟨-, -, -, -, rfl⟩
  · exact hs
  · exact hs.modifyUpload fun _ => ⟨rfl, rfl⟩

theorem AllPartsStored.completePassthrough (hs : AllPartsStored st)
    {requestedParts : List (Nat × String)} :
    AllPartsStored (Multipart.completePassthrough lim env uploadId bucket key requestedParts st).2 := by
  generalize hc : Multipart.completePassthrough lim env uploadId bucket key requestedParts st = r
  obtain ⟨res, st'⟩ := r
  rcases completePassthrough_cases hc with ⟨rfl, -⟩ | ⟨-, -, -, -, rfl⟩
  · exact hs
  · exact hs.modifyUpload fun _ => ⟨rfl, rfl⟩

/-- One call, whatever it answers. -/
theorem AllPartsStored.step (hs : AllPartsStored st) (op : MultipartOp) :
    AllPartsStored (op.apply lim env st) := by
  cases op with
  | create => exact hs.createWithRelayPolicy
  | uploadPart => exact hs.uploadPart
  | complete => exact hs.complete
  | completePassthrough => exact hs.completePassthrough
  | rollbackUpload => exact hs.modifyUpload fun _ => ⟨rfl, rfl⟩
  | storeGuard => exact hs.modifyUpload fun _ => ⟨rfl, rfl⟩
  | clearStoreInProgress => exact hs.modifyUpload fun _ => ⟨rfl, rfl⟩
  -- the calls that only remove uploads keep every invariant of each upload
  | finishUpload => exact EveryUpload.finishUpload hs
  | abort => exact EveryUpload.abort hs
  | purgeUploadsForBucket => exact EveryUpload.purgeUploadsForBucket hs
  | cleanupExpired maxAge completingTimeout =>
    exact EveryUpload.cleanupExpired hs env.now maxAge completingTimeout

theorem AllPartsStored.run {st' : MultipartStore} {evs : List (MultipartOp × Bool)}
    (h : Run lim st evs st') : AllPartsStored st → AllPartsStored st' := by
  induction h with
  | nil => exact id
  | cons hstep _ ih =>
    cases hstep with
    | call env op _ => exact fun hs => ih (hs.step op)

theorem allPartsStored_of_reachable (h : Reachable lim st) : AllPartsStored st := by
  obtain ⟨evs, hrun⟩ := h
  exact AllPartsStored.run hrun AllPartsStored.new

end Calls

/-! ## The part loop -/

/-- Requested part `r` names part `p`, whose MD5 its ETag gives once the
quotes are stripped. -/
def RequestedPart (parts : Parts) (r : Nat × String) (p : PartData) : Prop :=
  parts.lookup r.1 = some p ∧ String.ofList (trimMatches '"' r.2.toList) = p.md5Hex

section Loop

variable {lim : MultipartLimits} {env : MultipartEnv} {parts : Parts} {hydrate : Bool}
  {t : Nat} {m : List UInt8} {d : List (List UInt8)} {r : Nat × String} {rest : List (Nat × String)}
  {res : Nat × List UInt8 × List (List UInt8)}

/-- One accepted part: it is there, its ETag matches, it fits, and when the
loop hydrates its bytes are appended. -/
theorem validateLoop_cons_ok (h : validateLoop lim env parts hydrate t m d (r :: rest) = .ok res) :
    ∃ p d₁, RequestedPart parts r p ∧ t + p.size ≤ lim.maxObjectSize ∧
      (hydrate = true → ∃ b, p.Holds env b ∧ d₁ = d ++ [b]) ∧ (hydrate = false → d₁ = d) ∧
      validateLoop lim env parts hydrate (t + p.size) (m ++ p.md5Raw) d₁ rest = .ok res := by
  obtain ⟨n, etag⟩ := r
  unfold validateLoop at h
  split at h
  · cases h
  rename_i p hp
  dsimp only at h
  split at h
  · cases h
  rename_i hetag
  split at h
  · cases h
  rename_i hfit
  split at h
  · -- hydrating: the part's bytes are loaded and appended
    rename_i hhyd
    cases hload : p.payload.loadBytes env p.md5Raw with
    | error e => rw [hload] at h; cases h
    | ok b =>
      rw [hload] at h
      exact ⟨p, d ++ [b], ⟨hp, not_not.mp hetag⟩, not_lt.mp hfit,
        fun _ => ⟨b, loadBytes_eq_ok_iff.mp hload, rfl⟩, fun hf => absurd hhyd (by rw [hf]; decide), h⟩
  · rename_i hhyd
    exact ⟨p, d, ⟨hp, not_not.mp hetag⟩, not_lt.mp hfit, fun ht => absurd ht hhyd, fun _ => rfl, h⟩

/-- An accepted list, part by part: the parts it names in order, their sizes
and MD5s summed and concatenated, and, when hydrating, the bytes they hold. -/
theorem validateLoop_ok {t' : Nat} {m' : List UInt8} {d' : List (List UInt8)} :
    ∀ {req : List (Nat × String)} {t m d},
    validateLoop lim env parts hydrate t m d req = .ok (t', m', d') →
    ∃ ps, List.Forall₂ (RequestedPart parts) req ps ∧
      t' = t + (ps.map PartData.size).sum ∧ m' = m ++ ps.flatMap PartData.md5Raw ∧
      (hydrate = true → ∃ bs, List.Forall₂ (PartData.Holds env) ps bs ∧ d' = d ++ bs) ∧
      (hydrate = false → d' = d)
  | [], t, m, d, h => by
    unfold validateLoop at h
    cases h
    exact ⟨[], .nil, by simp, by simp, fun _ => ⟨[], .nil, by simp⟩, fun _ => rfl⟩
  | r :: rest, t, m, d, h => by
    obtain ⟨p, d₁, hreq, -, hhyd, hunhyd, hrest⟩ := validateLoop_cons_ok h
    obtain ⟨ps, hps, hsize, hmd5, hbytes, hkept⟩ := validateLoop_ok hrest
    refine ⟨p :: ps, .cons hreq hps, ?_, ?_, fun htrue => ?_, fun hfalse => ?_⟩
    · rw [hsize, List.map_cons, List.sum_cons, Nat.add_assoc]
    · rw [hmd5, List.flatMap_cons, List.append_assoc]
    · obtain ⟨b, hb, rfl⟩ := hhyd htrue
      obtain ⟨bs, hbs, hd⟩ := hbytes htrue
      exact ⟨b :: bs, .cons hb hbs, by rw [hd, List.append_assoc, List.singleton_append]⟩
    · rw [hkept hfalse, hunhyd hfalse]

/-- Without hydrating, an accepted part is passed over without its bytes. -/
theorem validateLoop_cons_unhydrated {p : PartData} (hreq : RequestedPart parts r p)
    (hfit : t + p.size ≤ lim.maxObjectSize) :
    validateLoop lim env parts false t m d (r :: rest) =
      validateLoop lim env parts false (t + p.size) (m ++ p.md5Raw) d rest := by
  obtain ⟨hp, hetag⟩ := hreq
  simp only [validateLoop, hp, hetag, ne_eq, not_true_eq_false, if_false, if_neg (not_lt.mpr hfit),
    Bool.false_eq_true]

/-- The loop without hydrating accepts what the hydrating one accepts, with
the same size and MD5s. -/
theorem validateLoop_unhydrated {t' : Nat} {m' : List UInt8} {d' : List (List UInt8)}
    (d₀ : List (List UInt8)) : ∀ {req : List (Nat × String)} {t m d},
    validateLoop lim env parts true t m d req = .ok (t', m', d') →
    validateLoop lim env parts false t m d₀ req = .ok (t', m', d₀)
  | [], t, m, d, h => by
    unfold validateLoop at h ⊢
    cases h
    rfl
  | r :: rest, t, m, d, h => by
    obtain ⟨p, d₁, hreq, hfit, -, -, hrest⟩ := validateLoop_cons_ok h
    rw [validateLoop_cons_unhydrated hreq hfit]
    exact validateLoop_unhydrated d₀ hrest

end Loop

/-! ## The two completes -/

section Complete

variable {lim : MultipartLimits} {env : MultipartEnv}
  {uploads : AList (fun _ : String => MultipartUpload)} {uploadId bucket key : String}
  {requestedParts : List (Nat × String)} {hydrate : Bool} {v : ValidatedParts} {u : MultipartUpload}

/-- What `validate_parts` checks before its loop, and what it answers. -/
theorem validateParts_ok
    (h : validateParts lim env uploads uploadId bucket key requestedParts hydrate = .ok (v, u)) :
    uploads.lookup uploadId = some u ∧ u.bucket = bucket ∧ u.key = key ∧ requestedParts ≠ [] ∧
      partsAscending requestedParts = true ∧
      ∃ md5Concat, validateLoop lim env u.parts hydrate 0 [] [] requestedParts =
          .ok (v.totalSize, md5Concat, v.partData) ∧
        v.etag = multipartEtag env.md5 md5Concat requestedParts.length := by
  unfold validateParts at h
  split at h
  · cases h
  rename_i upload hu
  split at h
  · cases h
  rename_i hbk
  split at h
  · cases h
  rename_i hempty
  split at h
  · cases h
  rename_i hasc
  cases hl : validateLoop lim env upload.parts hydrate 0 [] [] requestedParts with
  | error e => rw [hl] at h; cases h
  | ok r =>
    obtain ⟨totalSize, md5Concat, partData⟩ := r
    rw [hl] at h
    cases h
    simp only [ne_eq, not_or, not_not] at hbk
    exact ⟨hu, hbk.1, hbk.2, fun he => hempty (by rw [he]; rfl), by simpa using hasc, md5Concat, hl, rfl⟩

/-- `validate_parts` answers what its loop gives once the checks before it pass. -/
theorem validateParts_of {totalSize : Nat} {md5Concat : List UInt8} {partData : List (List UInt8)}
    (hu : uploads.lookup uploadId = some u) (hbucket : u.bucket = bucket) (hkey : u.key = key)
    (hne : requestedParts ≠ []) (hasc : partsAscending requestedParts = true)
    (hloop : validateLoop lim env u.parts hydrate 0 [] [] requestedParts =
      .ok (totalSize, md5Concat, partData)) :
    validateParts lim env uploads uploadId bucket key requestedParts hydrate =
      .ok (⟨partData, multipartEtag env.md5 md5Concat requestedParts.length, totalSize⟩, u) := by
  have hempty : requestedParts.isEmpty = false := List.isEmpty_eq_false_iff.mpr hne
  simp only [validateParts, hu, hbucket, hkey, ne_eq, not_true_eq_false, or_self, if_false, hempty,
    Bool.false_eq_true, hasc, Bool.not_true, hloop]
  rfl

/-- A relayed upload's requested parts, all in relay files that read back:
their paths in request order, whose reads answer the parts' bytes. -/
theorem orderedRelayPartPaths_ok {parts : Parts}
    (hrelayed : ∀ n p, parts.lookup n = some p → ∃ path, p.payload = .relayedFile path) :
    ∀ {requestedParts ps bs}, List.Forall₂ (RequestedPart parts) requestedParts ps →
      List.Forall₂ (PartData.Holds env) ps bs →
      ∃ paths, orderedRelayPartPaths env parts requestedParts = .ok paths ∧
        paths.mapM env.fs.read = .ok bs
  | [], [], [], .nil, .nil => ⟨[], rfl, rfl⟩
  | r :: rest, p :: ps, b :: bs, .cons ⟨hp, _⟩ hrest, .cons hb hbs => by
    obtain ⟨paths, hpaths, hreads⟩ := orderedRelayPartPaths_ok hrelayed hrest hbs
    obtain ⟨path, hpath⟩ := hrelayed _ p hp
    -- the part's file reads back its bytes, with its MD5
    have hholds : env.fs.read path = .ok b ∧ env.md5 b = p.md5Raw := by
      unfold PartData.Holds at hb
      rwa [hpath] at hb
    have hread : readRelayedPart env path p.md5Raw = .ok b := by
      unfold readRelayedPart
      rw [hholds.1]
      exact if_pos hholds.2
    refine ⟨path :: paths, ?_, ?_⟩
    · obtain ⟨n, etag⟩ := r
      simp only [orderedRelayPartPaths, hp, hpath, hread, hpaths]
      rfl
    · rw [List.mapM_cons, hholds.1, hreads]
      rfl

/-- What `complete` answers when it succeeds: the validated parts' bytes,
concatenated, with the upload's ETag, content type and metadata. -/
theorem complete_ok {st : MultipartStore} {c : CompletedUpload}
    (h : (complete lim env uploadId bucket key requestedParts st).1 = .ok c) :
    isCompleting st uploadId = false ∧ ∃ v u,
      validateParts lim env st.uploads uploadId bucket key requestedParts true = .ok (v, u) ∧
      c = ⟨v.partData.flatten, v.etag, u.contentType, u.userMetadata⟩ := by
  unfold complete at h
  split at h
  · cases h
  rename_i hnc
  split at h
  · cases h
  rename_i v u hv
  cases h
  exact ⟨Bool.eq_false_iff.mpr hnc, v, u, hv, rfl⟩

/-- `complete_passthrough` answers the payload built from its validation. -/
theorem completePassthrough_of {st : MultipartStore} {payload : PassthroughPayload}
    (hnc : isCompleting st uploadId = false) (hu : st.uploads.lookup uploadId = some u)
    (hv : validateParts lim env st.uploads uploadId bucket key requestedParts
      u.relayStrategy.isInMemory = .ok (v, u))
    (hpayload : passthroughPayload env requestedParts u v.partData = .ok payload) :
    (completePassthrough lim env uploadId bucket key requestedParts st).1 =
      .ok ⟨payload, v.etag, v.totalSize, u.contentType, u.userMetadata⟩ := by
  simp only [completePassthrough, hnc, Bool.false_eq_true, if_false, hu, hv, hpayload]

end Complete

/-! ## Assembly -/

/-- What a passthrough payload stands for: its chunks, or its relay files
read back in order, as the engine's store streams them. -/
def PassthroughPayload.contents (env : MultipartEnv) :
    PassthroughPayload → Except String (List UInt8)
  | .chunks parts => .ok parts.flatten
  | .relayedParts paths => List.flatten <$> paths.mapM env.fs.read

/-- The relay files of `u` that pass their part's MD5 check have the part's
recorded size. -/
def RelayFilesKeepSizes (env : MultipartEnv) (u : MultipartUpload) : Prop :=
  ∀ n p path bytes, u.parts.lookup n = some p → p.payload = .relayedFile path →
    env.fs.read path = .ok bytes → env.md5 bytes = p.md5Raw → bytes.length = p.size

/-- The bytes a stored part holds have its size: in memory by the invariant,
in a relay file when the files keep their sizes. -/
theorem PartsStored.holds_length {env : MultipartEnv} {u : MultipartUpload} (hu : PartsStored u)
    (hkeep : RelayFilesKeepSizes env u) {n : Nat} {p : PartData} {b : List UInt8}
    (hp : u.parts.lookup n = some p) (hb : p.Holds env b) : b.length = p.size := by
  unfold PartData.Holds at hb
  cases hpay : p.payload with
  | inMemory bytes =>
    rw [hpay] at hb
    rw [hb, hu.inMemory_size n p bytes hp hpay]
  | relayedFile path =>
    rw [hpay] at hb
    exact hkeep n p path b hp hpay hb.1 hb.2

/-- The declared total is the length of the assembled bytes when every part
holds as many bytes as it recorded. -/
theorem sum_size_eq_length_flatten {parts : Parts} {env : MultipartEnv}
    (hlen : ∀ n p b, parts.lookup n = some p → p.Holds env b → b.length = p.size) :
    ∀ {requestedParts ps bs}, List.Forall₂ (RequestedPart parts) requestedParts ps →
      List.Forall₂ (PartData.Holds env) ps bs → (ps.map PartData.size).sum = bs.flatten.length
  | [], [], [], .nil, .nil => rfl
  | _ :: _, p :: _, b :: _, .cons ⟨hp, _⟩ hrest, .cons hb hbs => by
    rw [List.map_cons, List.sum_cons, List.flatten_cons, List.length_append,
      sum_size_eq_length_flatten hlen hrest hbs, hlen _ p b hp hb]

/-- Where `complete` validated the parts of a stored upload,
`complete_passthrough` succeeds on the same store with the same validation:
an in-memory upload hands on the same loaded chunks, a relayed one its relay
files, which read back the same bytes. -/
theorem completePassthrough_of_validated {lim : MultipartLimits} {env : MultipartEnv}
    {st : MultipartStore} {uploadId bucket key : String} {requestedParts : List (Nat × String)}
    {v : ValidatedParts} {u : MultipartUpload} (hstored : PartsStored u)
    (hnc : isCompleting st uploadId = false)
    (hv : validateParts lim env st.uploads uploadId bucket key requestedParts true = .ok (v, u)) :
    ∃ payload, (completePassthrough lim env uploadId bucket key requestedParts st).1 =
        .ok ⟨payload, v.etag, v.totalSize, u.contentType, u.userMetadata⟩ ∧
      payload.contents env = .ok v.partData.flatten := by
  obtain ⟨hu, hbucket, hkey, hne, hasc, md5Concat, hloop, hetag⟩ := validateParts_ok hv
  cases hstrategy : u.relayStrategy with
  | inMemory threshold =>
    -- the very validation `complete` ran, its chunks handed on
    have hv' : validateParts lim env st.uploads uploadId bucket key requestedParts
        u.relayStrategy.isInMemory = .ok (v, u) := by
      rw [hstrategy]
      exact hv
    have hpayload : passthroughPayload env requestedParts u v.partData = .ok (.chunks v.partData) := by
      simp only [passthroughPayload, hstrategy]
    exact ⟨_, completePassthrough_of hnc hu hv' hpayload, rfl⟩
  | relayed relayDir =>
    -- validated without loading, then every part's file read back in order
    have hv' : validateParts lim env st.uploads uploadId bucket key requestedParts
        u.relayStrategy.isInMemory = .ok (⟨[], v.etag, v.totalSize⟩, u) := by
      rw [hstrategy, hetag]
      exact validateParts_of hu hbucket hkey hne hasc (validateLoop_unhydrated [] hloop)
    obtain ⟨ps, hps, -, -, hbytes, -⟩ := validateLoop_ok hloop
    obtain ⟨bs, hbs, hdata⟩ := hbytes rfl
    obtain ⟨paths, hpaths, hreads⟩ :=
      orderedRelayPartPaths_ok (hstored.relayed (by rw [hstrategy]; rfl)) hps hbs
    have hpayload : passthroughPayload env requestedParts u [] = .ok (.relayedParts paths) := by
      simp only [passthroughPayload, hstrategy, hpaths]
      rfl
    have hpassthrough := completePassthrough_of hnc hu hv' hpayload
    refine ⟨_, hpassthrough, ?_⟩
    simp only [PassthroughPayload.contents, hreads, hdata, List.nil_append]
    rfl

/-- Over every reachable store: a successful `complete` returns the
requested parts' bytes in request order, and the ETag over their MD5s;
`complete_passthrough` on the same store succeeds with the same ETag, the
sum of the parts' sizes as its total, and a payload whose contents are the
same bytes; the total is their length when the relay files keep their
sizes. -/
theorem multipart_assembly_agrees {lim : MultipartLimits} {env : MultipartEnv}
    {st : MultipartStore} {uploadId bucket key : String} {requestedParts : List (Nat × String)}
    {c : CompletedUpload} (hreach : Reachable lim st)
    (h : (complete lim env uploadId bucket key requestedParts st).1 = .ok c) :
    ∃ u ps bs, st.uploads.lookup uploadId = some u ∧
      List.Forall₂ (RequestedPart u.parts) requestedParts ps ∧
      List.Forall₂ (PartData.Holds env) ps bs ∧
      c.data = bs.flatten ∧
      c.etag = multipartEtag env.md5 (ps.flatMap PartData.md5Raw) requestedParts.length ∧
      ∃ cp, (completePassthrough lim env uploadId bucket key requestedParts st).1 = .ok cp ∧
        cp.etag = c.etag ∧ cp.payload.contents env = .ok c.data ∧
        cp.totalSize = (ps.map PartData.size).sum ∧
        (RelayFilesKeepSizes env u → cp.totalSize = c.data.length) := by
  obtain ⟨hnc, v, u, hv, rfl⟩ := complete_ok h
  obtain ⟨hu, -, -, -, -, md5Concat, hloop, hetag⟩ := validateParts_ok hv
  obtain ⟨ps, hps, hsize, hmd5, hbytes, -⟩ := validateLoop_ok hloop
  obtain ⟨bs, hbs, hdata⟩ := hbytes rfl
  have hstored : PartsStored u := allPartsStored_of_reachable hreach uploadId u hu
  have hflatten : v.partData.flatten = bs.flatten := by
    rw [hdata, List.nil_append]
  have hsize' : v.totalSize = (ps.map PartData.size).sum := by
    rw [hsize, Nat.zero_add]
  -- the declared total against the bytes, part by part
  have hlength : RelayFilesKeepSizes env u → v.totalSize = v.partData.flatten.length := by
    intro hkeep
    rw [hsize', hflatten]
    exact sum_size_eq_length_flatten (fun _ _ _ hp hb => hstored.holds_length hkeep hp hb) hps hbs
  obtain ⟨payload, hpassthrough, hcontents⟩ := completePassthrough_of_validated hstored hnc hv
  refine ⟨u, ps, bs, hu, hps, hbs, hflatten, ?_, _, hpassthrough, rfl, hcontents, hsize', hlength⟩
  rw [hetag, hmd5, List.nil_append]

/-- Over every reachable store whose relay files read back bytes of their
parts' recorded sizes: a successful `complete` returns the requested parts'
bytes in request order and the ETag over their MD5s, and
`complete_passthrough` on the same store succeeds with the same ETag, a
payload whose contents are that data, and the data's length as its total. -/
theorem multipart_assembly_exact {lim : MultipartLimits} {env : MultipartEnv}
    {st : MultipartStore} {uploadId bucket key : String} {requestedParts : List (Nat × String)}
    {c : CompletedUpload} (hreach : Reachable lim st)
    (hfiles : ∀ u, st.uploads.lookup uploadId = some u → RelayFilesKeepSizes env u)
    (h : (complete lim env uploadId bucket key requestedParts st).1 = .ok c) :
    ∃ u ps bs, st.uploads.lookup uploadId = some u ∧
      List.Forall₂ (RequestedPart u.parts) requestedParts ps ∧
      List.Forall₂ (PartData.Holds env) ps bs ∧
      c.data = bs.flatten ∧
      c.etag = multipartEtag env.md5 (ps.flatMap PartData.md5Raw) requestedParts.length ∧
      ∃ cp, (completePassthrough lim env uploadId bucket key requestedParts st).1 = .ok cp ∧
        cp.etag = c.etag ∧ cp.payload.contents env = .ok c.data ∧ cp.totalSize = c.data.length := by
  obtain ⟨u, ps, bs, hu, hps, hbs, hdata, hetag, cp, hcp, hcpEtag, hcontents, -, hlength⟩ :=
    multipart_assembly_agrees hreach h
  exact ⟨u, ps, bs, hu, hps, hbs, hdata, hetag, cp, hcp, hcpEtag, hcontents, hlength (hfiles u hu)⟩

set_option maxRecDepth 20000 in
/-- A one-part in-memory upload, its id drawn from sixteen random bytes,
completed with the part's MD5 as its ETag; it has no relay file. -/
theorem multipart_assembly_exact_one_part :
    let lim : MultipartLimits := ⟨100, 10, 1000, 3600⟩
    let env : MultipartEnv := ⟨0, "relay", Digest.Md5.digest, RelayFs.healthy⟩
    let uploadId := hexEncode (List.replicate 16 1)
    let st := (MultipartOp.uploadPart uploadId "b" "k" 1 [7, 7]).apply lim env
      ((MultipartOp.create (List.replicate 16 1) "b" "k" none UserMeta.empty none false).apply lim env
        MultipartStore.new)
    let c : CompletedUpload :=
      ⟨[7, 7], multipartEtag Digest.Md5.digest (Digest.Md5.digest [7, 7]) 1, none, UserMeta.empty⟩
    (∀ u, st.uploads.lookup uploadId = some u → RelayFilesKeepSizes env u) ∧
    ∃ u ps bs, st.uploads.lookup uploadId = some u ∧
      List.Forall₂ (RequestedPart u.parts) [(1, "d0ef81942a79596af5990216e3d17b4e")] ps ∧
      List.Forall₂ (PartData.Holds env) ps bs ∧
      c.data = bs.flatten ∧
      c.etag = multipartEtag env.md5 (ps.flatMap PartData.md5Raw)
        [(1, "d0ef81942a79596af5990216e3d17b4e")].length ∧
      ∃ cp, (completePassthrough lim env uploadId "b" "k" [(1, "d0ef81942a79596af5990216e3d17b4e")]
          st).1 = .ok cp ∧
        cp.etag = c.etag ∧ cp.payload.contents env = .ok c.data ∧ cp.totalSize = c.data.length := by
  intro lim env uploadId st c
  -- the one part is in memory, so no relay file is read
  have hfiles : ∀ u, st.uploads.lookup uploadId = some u → RelayFilesKeepSizes env u := by
    intro u hu n p path bytes hp hpay
    have hall : (st.uploads.lookup uploadId).all (fun u => u.parts.entries.all fun q =>
        match q.2.payload with
        | .inMemory _ => true
        | .relayedFile _ => false) = true := by decide
    rw [hu, Option.all_some] at hall
    have hq := List.all_eq_true.mp hall ⟨n, p⟩ (AList.mem_lookup_iff.mp hp)
    rw [hpay] at hq
    cases hq
  -- the requested ETag is the hex MD5 of the part, and the completion reads it back
  have hdone : (complete lim env uploadId "b" "k" [(1, "d0ef81942a79596af5990216e3d17b4e")] st).1 =
      .ok c := by
    rfl
  exact ⟨hfiles, multipart_assembly_exact ⟨_, .cons (.call env
    (.create (List.replicate 16 1) "b" "k" none UserMeta.empty none false) (AList.notMem_empty _))
      (.cons (.call env (.uploadPart uploadId "b" "k" 1 [7, 7]) trivial) (.nil _))⟩ hfiles hdone⟩

end DeltaGlider.Multipart
