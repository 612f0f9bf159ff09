import Mathlib
import DeltaGlider.Lib.Pull
import DeltaGlider.Storage.ChunkFormat

/-!
# The chunked decoder

Model of `decrypt_stream_from_state` (`src/storage/encrypting.rs`), the
`futures::stream::unfold` body shared by `chunked_decrypt_stream` and
`chunked_decrypt_stream_from_chunk`.  The inner ciphertext stream is a
finite list of deliveries, each bytes or the inner stream's error.

One pass of the closure's `loop` is `decodeStep`, cut along the source's
phases: the header (`readHeader`), the length prefix and body of one frame
(`readFrame`), its decryption and the index bump (`openFrame`) and the range
trim (`trimPlaintext`).  A pass yields an item, ends the stream or
`continue`s.  `drain` polls the stream until it ends or yields its first
error, as `try_collect` and a response body do.

The main results:

    decodeStep_pending      a pass that does not end or fail consumes a frame
    drained_ne_outOfFuel    on a finite inner stream the decoder always ends or fails
    drained_atFrames        over a well-formed frame: its window, trimmed, then the rest
    drained_frames          over a run of non-final frames
    drained_atFrames_overflow   a frame at index `u32::MAX` ends in "chunk index overflow"
-/

namespace DeltaGlider.Encrypting

open RustStd

/-! ## The state machine -/

/-- `DecryptState`, the `unfold` state.  `buf` holds the ciphertext bytes
not yet consumed; `skipBytes` and `takeBytes` trim the plaintext for range
reads. -/
structure DecryptState where
  inner : List (Except StorageError (List UInt8))
  key : EncryptionKey
  buf : List UInt8
  headerDone : Bool
  baseIv : List UInt8
  chunkIndex : Nat
  expectedFinalIndex : Nat
  emittedFinal : Bool
  skipBytes : Nat
  takeBytes : Option Nat

/-- What one pass of the closure's `loop` does. -/
inductive Pass where
  /-- `return Some((item, st))`. -/
  | yield (item : Except StorageError (List UInt8)) (st : DecryptState)
  /-- `return None`: the stream ends. -/
  | stop
  /-- `continue`: a frame whose trimmed plaintext is empty. -/
  | again (st : DecryptState)

/-- Phase 1: `[magic][base_iv]`, unless the caller consumed it already. -/
def readHeader (st : DecryptState) : Except (StorageError × DecryptState) DecryptState :=
  if st.headerDone then .ok st
  else
    match Pull.fill chunkHeaderLen st.buf st.inner with
    | .failed e buf rest => .error (e, { st with buf := buf, inner := rest })
    | .ended buf =>
      .error (.encryption "stream ended before encryption header", { st with buf := buf, inner := [] })
    | .filled buf rest =>
      if buf.take 4 ≠ chunkMagic then
        .error (.encryption ("bad chunked-encryption magic: " ++ hexSliceDebug (buf.take 4)),
          { st with buf := buf, inner := rest })
      else
        .ok { st with inner := rest, buf := buf.drop chunkHeaderLen,
                      baseIv := (buf.take chunkHeaderLen).drop 4, headerDone := true }

/-- Phase 2 up to a whole frame in the buffer: the length prefix, the
ceiling check and the body.  Returns the frame's wire length. -/
def readFrame (st : DecryptState) : Except (StorageError × DecryptState) (Nat × DecryptState) :=
  match Pull.fill chunkFrameLenField st.buf st.inner with
  | .failed e buf rest => .error (e, { st with buf := buf, inner := rest })
  | .ended buf =>
    .error (.encryption ("stream truncated before chunk " ++ toString st.chunkIndex ++
      " (expected final index " ++ toString st.expectedFinalIndex ++ ")"),
      { st with buf := buf, inner := [] })
  | .filled buf rest =>
    let declared := u32FromLe (buf.take chunkFrameLenField)
    if chunkMaxWireCiphertext < declared then
      .error (.encryption ("frame length " ++ toString declared ++ " exceeds ceiling " ++
        toString chunkMaxWireCiphertext ++ " — rejecting (possible DOS)"),
        { st with buf := buf, inner := rest })
    else
      let frameWireLen := chunkFrameLenField + declared
      match Pull.fill frameWireLen buf rest with
      | .failed e buf rest => .error (e, { st with buf := buf, inner := rest })
      | .ended buf =>
        .error (.encryption "stream truncated mid-frame-body", { st with buf := buf, inner := [] })
      | .filled buf rest => .ok (frameWireLen, { st with buf := buf, inner := rest })

/-- Decrypt the buffered frame with `is_final = (chunk_index ==
expected_final_index)`, drop it from the buffer and advance the index. -/
def openFrame (E : Cipher) (st : DecryptState) (frameWireLen : Nat) :
    Except (StorageError × DecryptState) (List UInt8 × DecryptState) :=
  let isFinal := st.chunkIndex == st.expectedFinalIndex
  let ct := (st.buf.take frameWireLen).drop chunkFrameLenField
  match decryptChunk E st.key st.baseIv st.chunkIndex isFinal ct with
  | .error e => .error (e, st)
  | .ok pt =>
    let st := { st with buf := st.buf.drop frameWireLen }
    match checkedAdd u32Max st.chunkIndex 1 with
    | none => .error (.encryption "chunk index overflow during decode", st)
    | some next => .ok (pt, { st with chunkIndex := next, emittedFinal := st.emittedFinal || isFinal })

/-- The range trim: skip `skip_bytes` at the head, then emit at most
`take_bytes`. -/
def trimPlaintext (st : DecryptState) (pt : List UInt8) : List UInt8 × DecryptState :=
  let skip := min st.skipBytes pt.length
  let remainder := pt.drop skip
  let st := { st with skipBytes := st.skipBytes - skip }
  match st.takeBytes with
  | some take =>
    let takeNow := min take remainder.length
    (remainder.take takeNow, { st with takeBytes := some (take - takeNow) })
  | none => (remainder, st)

/-- An empty trimmed plaintext is not emitted: the loop goes on. -/
def emitOrContinue : List UInt8 × DecryptState → Pass
  | (toEmit, st) => if toEmit.isEmpty then .again st else .yield (.ok toEmit) st

/-- One pass of the loop. -/
def decodeStep (E : Cipher) (st : DecryptState) : Pass :=
  if st.takeBytes = some 0 then .stop
  else
    match readHeader st with
    | .error (e, st) => .yield (.error e) st
    | .ok st =>
      -- after the final frame the stream ends, trailing bytes or not
      if st.emittedFinal then .stop
      else
        match readFrame st with
        | .error (e, st) => .yield (.error e) st
        | .ok (frameWireLen, st) =>
          match openFrame E st frameWireLen with
          | .error (e, st) => .yield (.error e) st
          | .ok (pt, st) => emitOrContinue (trimPlaintext st pt)

/-! ## Polling the stream -/

/-- What a consumer that stops at the first error sees: the bytes yielded,
and then the end of the stream or the error. -/
inductive Drained where
  | ended (out : List UInt8)
  | failed (out : List UInt8) (e : StorageError)
  | outOfFuel
  deriving DecidableEq, Repr

/-- Bytes yielded before the rest. -/
def Drained.prepend (b : List UInt8) : Drained → Drained
  | .ended out => .ended (b ++ out)
  | .failed out e => .failed (b ++ out) e
  | .outOfFuel => .outOfFuel

/-- A finite stream of items, polled until it ends or yields an error. -/
def Drained.ofItems : List (Except StorageError (List UInt8)) → Drained
  | [] => .ended []
  | .ok b :: rest => (ofItems rest).prepend b
  | .error e :: _ => .failed [] e

/-- Poll the stream for at most `fuel` passes. -/
def drain (E : Cipher) : Nat → DecryptState → Drained
  | 0, _ => .outOfFuel
  | fuel + 1, st =>
    match decodeStep E st with
    | .stop => .ended []
    | .yield (.error e) _ => .failed [] e
    | .yield (.ok b) st => (drain E fuel st).prepend b
    | .again st => drain E fuel st

/-- Ciphertext bytes the decoder holds or has yet to receive. -/
def DecryptState.pending (st : DecryptState) : Nat := st.buf.length + (Pull.bytes st.inner).length

/-- The stream polled to its end; every pass but the last consumes a frame,
so one pass per pending byte is enough (`drain_eq_drained`). -/
def drained (E : Cipher) (st : DecryptState) : Drained := drain E (st.pending + 1) st

/-- `chunked_decrypt_stream`: the full-object decoder. -/
def chunkedDecryptStream (E : Cipher) (inner : List (Except StorageError (List UInt8)))
    (key : EncryptionKey) (expectedFinalIndex skipBytes : Nat) (takeBytes : Option Nat) :
    Drained :=
  drained E { inner, key, buf := [], headerDone := false, baseIv := List.replicate ivLen 0,
              chunkIndex := 0, expectedFinalIndex, emittedFinal := false, skipBytes, takeBytes }

/-- `chunked_decrypt_stream_from_chunk`: the range decoder, whose caller read
the header itself and starts the stream at a frame. -/
def chunkedDecryptStreamFromChunk (E : Cipher) (inner : List (Except StorageError (List UInt8)))
    (key : EncryptionKey) (baseIv : List UInt8) (startingChunkIndex expectedFinalIndex skipBytes : Nat)
    (takeBytes : Option Nat) : Drained :=
  drained E { inner, key, buf := [], headerDone := true, baseIv, chunkIndex := startingChunkIndex,
              expectedFinalIndex, emittedFinal := false, skipBytes, takeBytes }

/-! ## Every pass makes progress -/

section Progress

variable {E : Cipher} {st st' : DecryptState}

theorem readHeader_pending (h : readHeader st = .ok st') : st'.pending ≤ st.pending := by
  unfold readHeader at h
  split at h
  · cases h
    exact le_rfl
  · split at h
    · cases h
    · cases h
    · next buf rest hfill =>
      split at h
      · cases h
      · cases h
        have hcat := congrArg List.length (Pull.fill_eq_filled hfill).1
        simp only [List.length_append] at hcat
        simp only [DecryptState.pending, List.length_drop]
        omega

theorem readFrame_pending {n : Nat} (h : readFrame st = .ok (n, st')) :
    st'.pending = st.pending ∧ chunkFrameLenField ≤ n ∧ n ≤ st'.buf.length := by
  unfold readFrame at h
  split at h
  · cases h
  · cases h
  · next buf rest hfill =>
    dsimp only at h
    split at h
    · cases h
    · split at h
      · cases h
      · cases h
      · next buf' rest' hfill' =>
        cases h
        have hcat := congrArg List.length (Pull.fill_eq_filled hfill).1
        have hcat' := Pull.fill_eq_filled hfill'
        have hlen := congrArg List.length hcat'.1
        simp only [List.length_append] at hcat hlen
        refine ⟨?_, Nat.le_add_right _ _, hcat'.2⟩
        simp only [DecryptState.pending]
        omega

theorem openFrame_pending {n : Nat} {pt : List UInt8} (hn : n ≤ st.buf.length)
    (h : openFrame E st n = .ok (pt, st')) : st'.pending + n = st.pending := by
  unfold openFrame at h
  dsimp only at h
  split at h
  · cases h
  · split at h
    · cases h
    · cases h
      simp only [DecryptState.pending, List.length_drop]
      omega

/-- The trim changes only `skip_bytes` and `take_bytes`. -/
theorem trimPlaintext_frame (st : DecryptState) (pt : List UInt8) :
    (trimPlaintext st pt).2 = { st with skipBytes := (trimPlaintext st pt).2.skipBytes,
                                        takeBytes := (trimPlaintext st pt).2.takeBytes } := by
  unfold trimPlaintext
  dsimp only
  split <;> rfl

/-- What the trim emits depends on `skip_bytes` and `take_bytes` only. -/
theorem trimPlaintext_congr (st st' : DecryptState) (pt : List UInt8)
    (hs : st'.skipBytes = st.skipBytes) (ht : st'.takeBytes = st.takeBytes) :
    (trimPlaintext st' pt).1 = (trimPlaintext st pt).1 ∧
      (trimPlaintext st' pt).2.skipBytes = (trimPlaintext st pt).2.skipBytes ∧
      (trimPlaintext st' pt).2.takeBytes = (trimPlaintext st pt).2.takeBytes := by
  unfold trimPlaintext
  rw [hs, ht]
  dsimp only
  split <;> exact ⟨rfl, rfl, rfl⟩

/-- A trim whose `take_bytes` covers the plaintext left after the skip
emits all of it. -/
theorem trimPlaintext_of_le (st : DecryptState) (pt : List UInt8)
    (h : ∀ k, st.takeBytes = some k → (pt.drop st.skipBytes).length ≤ k) :
    (trimPlaintext st pt).1 = pt.drop st.skipBytes ∧
      (trimPlaintext st pt).2.skipBytes = st.skipBytes - pt.length ∧
      (trimPlaintext st pt).2.takeBytes = st.takeBytes.map (· - (pt.drop st.skipBytes).length) := by
  -- skipping `min skip |pt|` bytes is skipping `skip` bytes
  have hdrop : pt.drop (min st.skipBytes pt.length) = pt.drop st.skipBytes := by
    rcases le_total st.skipBytes pt.length with hle | hle
    · rw [min_eq_left hle]
    · rw [min_eq_right hle, List.drop_of_length_le le_rfl, List.drop_of_length_le hle]
  have hskip : st.skipBytes - min st.skipBytes pt.length = st.skipBytes - pt.length := by omega
  unfold trimPlaintext
  dsimp only
  split
  · next k hk =>
    have hle := h k hk
    rw [hdrop]
    refine ⟨List.take_of_length_le (by omega), hskip, ?_⟩
    simp only [hk, Option.map_some, Option.some.injEq]
    omega
  · next hk =>
    rw [hdrop, hk]
    exact ⟨rfl, hskip, rfl⟩

/-- A trim under `take_bytes = some k` emits the first `k` bytes after the
skip. -/
theorem trimPlaintext_of_take (st : DecryptState) (pt : List UInt8) {k : Nat}
    (h : st.takeBytes = some k) :
    (trimPlaintext st pt).1 = (pt.drop st.skipBytes).take k ∧
      (trimPlaintext st pt).2.takeBytes = some (k - min k (pt.drop st.skipBytes).length) := by
  have hdrop : pt.drop (min st.skipBytes pt.length) = pt.drop st.skipBytes :=
    List.drop_eq_drop_min.symm
  simp only [trimPlaintext, h, hdrop]
  exact ⟨List.take_eq_take_min.symm, trivial⟩

theorem pending_trimPlaintext (st : DecryptState) (pt : List UInt8) :
    (trimPlaintext st pt).2.pending = st.pending := by
  rw [trimPlaintext_frame]
  rfl

theorem emitOrContinue_state {x : List UInt8 × DecryptState} {s : DecryptState}
    (h : (∃ b, emitOrContinue x = .yield (.ok b) s) ∨ emitOrContinue x = .again s) : s = x.2 := by
  obtain ⟨toEmit, so⟩ := x
  by_cases hb : toEmit.isEmpty = true
  · simp only [emitOrContinue, hb, if_true] at h
    rcases h with ⟨b, h⟩ | h <;> cases h
    rfl
  · simp only [emitOrContinue, hb] at h
    rcases h with ⟨b, h⟩ | h <;> cases h
    rfl

/-- Everything a pass that neither ends nor fails has done: read the header
if needed, read a frame, open it and trim its plaintext. -/
theorem decodeStep_progress
    (h : (∃ b, decodeStep E st = .yield (.ok b) st') ∨ decodeStep E st = .again st') :
    ∃ sh n sf pt so, readHeader st = .ok sh ∧ readFrame sh = .ok (n, sf) ∧
      openFrame E sf n = .ok (pt, so) ∧ st' = (trimPlaintext so pt).2 := by
  -- every other branch of the pass ends the stream or yields an error
  have hne : ∀ p : Pass, ((∃ b, p = .yield (.ok b) st') ∨ p = .again st') →
      ∀ e s, p ≠ .yield (.error e) s := by
    rintro p (⟨b, rfl⟩ | rfl) e s h <;> cases h
  unfold decodeStep at h
  split at h
  · rcases h with ⟨b, h⟩ | h <;> cases h
  · split at h
    · next e s _ => exact absurd rfl (hne _ h e s)
    · next sh hh =>
      split at h
      · rcases h with ⟨b, h⟩ | h <;> cases h
      · split at h
        · next e s _ => exact absurd rfl (hne _ h e s)
        · next n sf hf =>
          split at h
          · next e s _ => exact absurd rfl (hne _ h e s)
          · next pt so ho => exact ⟨sh, n, sf, pt, so, hh, hf, ho, emitOrContinue_state h⟩

/-- A pass that neither ends nor fails consumes at least a length prefix. -/
theorem decodeStep_pending
    (h : (∃ b, decodeStep E st = .yield (.ok b) st') ∨ decodeStep E st = .again st') :
    st'.pending + chunkFrameLenField ≤ st.pending := by
  obtain ⟨sh, n, sf, pt, so, hh, hf, ho, rfl⟩ := decodeStep_progress h
  have h1 := readHeader_pending hh
  obtain ⟨h2, hn4, hnbuf⟩ := readFrame_pending hf
  have h3 := openFrame_pending hnbuf ho
  have h4 := pending_trimPlaintext so pt
  omega

theorem decodeStep_pending_lt
    (h : (∃ b, decodeStep E st = .yield (.ok b) st') ∨ decodeStep E st = .again st') :
    st'.pending < st.pending := by
  have := decodeStep_pending h
  unfold chunkFrameLenField at this
  omega

end Progress

/-! ## Enough fuel -/

section Fuel

variable {E : Cipher}

theorem drain_succ (n : Nat) (st : DecryptState) :
    drain E (n + 1) st =
      match decodeStep E st with
      | .stop => .ended []
      | .yield (.error e) _ => .failed [] e
      | .yield (.ok b) st => (drain E n st).prepend b
      | .again st => drain E n st := rfl

theorem drain_congr {n m : Nat} {st : DecryptState} (hn : st.pending < n) (hm : st.pending < m) :
    drain E n st = drain E m st := by
  induction n generalizing m st with
  | zero => omega
  | succ n ih =>
    obtain ⟨m, rfl⟩ : ∃ m', m = m' + 1 := ⟨m - 1, by omega⟩
    rw [drain_succ, drain_succ]
    split
    · rfl
    · rfl
    · next b st' hs =>
      have hlt := decodeStep_pending_lt (.inl ⟨b, hs⟩)
      have h1 : st'.pending < n := by omega
      have h2 : st'.pending < m := by omega
      rw [ih h1 h2]
    · next st' hs =>
      have hlt := decodeStep_pending_lt (.inr hs)
      have h1 : st'.pending < n := by omega
      have h2 : st'.pending < m := by omega
      exact ih h1 h2

/-- Any fuel above the pending bytes gives the same result. -/
theorem drain_eq_drained {n : Nat} {st : DecryptState} (h : st.pending < n) :
    drain E n st = drained E st :=
  drain_congr h (Nat.lt_succ_self _)

theorem drained_of_stop {st : DecryptState} (h : decodeStep E st = .stop) :
    drained E st = .ended [] := by
  rw [drained]
  simp only [drain_succ, h]

theorem drained_of_error {st st' : DecryptState} {e : StorageError}
    (h : decodeStep E st = .yield (.error e) st') : drained E st = .failed [] e := by
  rw [drained]
  simp only [drain_succ, h]

theorem drained_of_yield {st st' : DecryptState} {b : List UInt8}
    (h : decodeStep E st = .yield (.ok b) st') : drained E st = (drained E st').prepend b := by
  have hp := decodeStep_pending_lt (.inl ⟨b, h⟩)
  rw [drained]
  simp only [drain_succ, h]
  rw [drain_eq_drained hp]

theorem drained_of_again {st st' : DecryptState} (h : decodeStep E st = .again st') :
    drained E st = drained E st' := by
  have hp := decodeStep_pending_lt (.inr h)
  rw [drained]
  simp only [drain_succ, h]
  exact drain_eq_drained hp

@[simp] theorem Drained.prepend_nil (d : Drained) : d.prepend [] = d := by
  cases d <;> rfl

theorem Drained.prepend_append (a b : List UInt8) (d : Drained) :
    (d.prepend b).prepend a = d.prepend (a ++ b) := by
  cases d <;> simp [Drained.prepend]

theorem Drained.prepend_eq_ended {b out : List UInt8} {d : Drained} (h : d.prepend b = .ended out) :
    ∃ out', d = .ended out' ∧ out = b ++ out' := by
  cases d with
  | ended out' =>
    cases h
    exact ⟨out', rfl, rfl⟩
  | failed out' e => cases h
  | outOfFuel => cases h

/-- Two states whose next pass is the same drain the same. -/
theorem drained_congr_step {st st' : DecryptState} (h : decodeStep E st = decodeStep E st') :
    drained E st = drained E st' := by
  cases hs : decodeStep E st' with
  | stop => rw [drained_of_stop (h.trans hs), drained_of_stop hs]
  | yield item s =>
    cases item with
    | error e => rw [drained_of_error (h.trans hs), drained_of_error hs]
    | ok b => rw [drained_of_yield (h.trans hs), drained_of_yield hs]
  | again s => rw [drained_of_again (h.trans hs), drained_of_again hs]

/-- A pass that ends in `emitOrContinue`: its bytes, then the rest. -/
theorem drained_of_emitOrContinue {st : DecryptState} {x : List UInt8 × DecryptState}
    (h : decodeStep E st = emitOrContinue x) : drained E st = (drained E x.2).prepend x.1 := by
  obtain ⟨b, st'⟩ := x
  by_cases hb : b.isEmpty = true
  · have h' : decodeStep E st = .again st' := by simpa [emitOrContinue, hb] using h
    rw [drained_of_again h', List.isEmpty_iff.mp hb, Drained.prepend_nil]
  · have h' : decodeStep E st = .yield (.ok b) st' := by simpa [emitOrContinue, hb] using h
    exact drained_of_yield h'

/-- **The decoder terminates**: on a finite inner stream it always ends or
yields an error. -/
theorem drained_ne_outOfFuel (st : DecryptState) : drained E st ≠ .outOfFuel := by
  -- strong induction on the pending bytes, which every further pass lowers
  induction h : st.pending using Nat.strong_induction_on generalizing st with
  | _ n ih =>
    cases hs : decodeStep E st with
    | yield item st' =>
      cases item with
      | error e =>
        rw [drained_of_error hs]
        simp
      | ok b =>
        have hlt := decodeStep_pending_lt (.inl ⟨b, hs⟩)
        have hrest := ih st'.pending (by omega) st' rfl
        rw [drained_of_yield hs]
        cases hd : drained E st' with
        | ended out => simp [Drained.prepend]
        | failed out e => simp [Drained.prepend]
        | outOfFuel => exact absurd hd hrest
    | stop =>
      rw [drained_of_stop hs]
      simp
    | again st' =>
      have hlt := decodeStep_pending_lt (.inr hs)
      rw [drained_of_again hs]
      exact ih st'.pending (by omega) st' rfl

end Fuel

/-! ## Decoding well-formed frames -/

/-- The decoder stands at frame `j` of an encoding under `key` and `iv`: the
header is read, the final frame is not yet decrypted, and the inner stream
is error-free with the buffer and the undelivered bytes spelling the frames
of windows `ws` from index `j`, then `rest`. -/
structure AtFrames (E : Cipher) (key : EncryptionKey) (iv : List UInt8) (j : Nat)
    (ws : List (List UInt8)) (rest : List UInt8) (st : DecryptState) : Prop where
  headerDone : st.headerDone = true
  notFinal : st.emittedFinal = false
  key_eq : st.key = key
  baseIv_eq : st.baseIv = iv
  chunkIndex_eq : st.chunkIndex = j
  bytes : ∃ ds, st.inner = Pull.deliver ds ∧
    st.buf ++ ds.flatten = (framesFrom E key iv st.expectedFinalIndex j ws).flatten ++ rest

section Frames

variable {E : Cipher} {key : EncryptionKey} {iv : List UInt8} {st : DecryptState}

theorem readHeader_of_headerDone (h : st.headerDone = true) : readHeader st = .ok st := by
  simp [readHeader, h]

theorem decodeStep_of_take_zero (h : st.takeBytes = some 0) : decodeStep E st = .stop := by
  simp [decodeStep, h]

/-- Once the final frame is decrypted, the stream ends whatever follows. -/
theorem decodeStep_of_emittedFinal (hd : st.headerDone = true) (hf : st.emittedFinal = true) :
    decodeStep E st = .stop := by
  unfold decodeStep
  split
  · rfl
  · rw [readHeader_of_headerDone hd]
    simp [hf]

/-- A header read that succeeds leaves the header read and the range as
they were: the pass goes on as the pass of the state it leaves. -/
theorem decodeStep_of_readHeader_ok {st' : DecryptState} (h : readHeader st = .ok st') :
    decodeStep E st = decodeStep E st' := by
  have hst : st'.headerDone = true ∧ st'.takeBytes = st.takeBytes := by
    unfold readHeader at h
    split at h
    · next hd => cases h; exact ⟨hd, rfl⟩
    · split at h
      · cases h
      · cases h
      · split at h
        · cases h
        · cases h; exact ⟨rfl, rfl⟩
  unfold decodeStep
  rw [hst.2, h, readHeader_of_headerDone hst.1]

/-- A pass fails where the header read fails, ... -/
theorem decodeStep_of_readHeader_error {e : StorageError} {st' : DecryptState}
    (ht : st.takeBytes ≠ some 0) (h : readHeader st = .error (e, st')) :
    decodeStep E st = .yield (.error e) st' := by
  unfold decodeStep
  rw [if_neg ht, h]

/-- ... where the frame read fails, ... -/
theorem decodeStep_of_readFrame_error {e : StorageError} {st' : DecryptState}
    (hd : st.headerDone = true) (hf : st.emittedFinal = false) (ht : st.takeBytes ≠ some 0)
    (h : readFrame st = .error (e, st')) : decodeStep E st = .yield (.error e) st' := by
  unfold decodeStep
  rw [if_neg ht, readHeader_of_headerDone hd]
  dsimp only
  rw [if_neg (by simp [hf]), h]

/-- ... and where the frame fails to open. -/
theorem decodeStep_of_openFrame_error {n : Nat} {e : StorageError} {sf st' : DecryptState}
    (hd : st.headerDone = true) (hf : st.emittedFinal = false) (ht : st.takeBytes ≠ some 0)
    (hrf : readFrame st = .ok (n, sf)) (h : openFrame E sf n = .error (e, st')) :
    decodeStep E st = .yield (.error e) st' := by
  unfold decodeStep
  rw [if_neg ht, readHeader_of_headerDone hd]
  dsimp only
  rw [if_neg (by simp [hf]), hrf]
  dsimp only
  rw [h]

/-- The length prefix and body of a frame `[len][ct]` that fits under the
ceiling are read whole, however the stream cuts them. -/
theorem readFrame_frame {ds : List (List UInt8)} {ct rest : List UInt8}
    (hin : st.inner = Pull.deliver ds) (hct : ct.length ≤ chunkMaxWireCiphertext)
    (hb : st.buf ++ ds.flatten = u32Le ct.length ++ ct ++ rest) :
    ∃ buf ds', readFrame st =
        .ok (chunkFrameLenField + ct.length, { st with buf := buf, inner := Pull.deliver ds' }) ∧
      (buf.take (chunkFrameLenField + ct.length)).drop chunkFrameLenField = ct ∧
      buf.drop (chunkFrameLenField + ct.length) ++ ds'.flatten = rest := by
  have hlen := congrArg List.length hb
  simp only [List.length_append, length_u32Le] at hlen
  have h4 : (u32Le ct.length).length = chunkFrameLenField := rfl
  -- the length prefix
  obtain ⟨buf1, ds1, hf1, hl1, hc1⟩ := @Pull.fill_filled StorageError UInt8 chunkFrameLenField ds
    st.buf (by unfold chunkFrameLenField; omega)
  have hb1 : buf1 ++ ds1.flatten = u32Le ct.length ++ (ct ++ rest) := by
    rw [hc1, hb, List.append_assoc]
  have hlenField := (Pull.take_drop_of_append_eq hb1 (by rw [h4]; exact hl1)).1
  rw [h4] at hlenField
  have hdeclared : u32FromLe (buf1.take chunkFrameLenField) = ct.length := by
    rw [hlenField, u32FromLe_u32Le (by unfold u32Max chunkMaxWireCiphertext chunkPlaintextSize gcmTagLen at *; omega)]
  -- the body
  obtain ⟨buf2, ds2, hf2, hl2, hc2⟩ := @Pull.fill_filled StorageError UInt8
    (chunkFrameLenField + ct.length) ds1 buf1 (by
      have := congrArg List.length hb1
      simp only [List.length_append, length_u32Le] at this
      unfold chunkFrameLenField
      omega)
  have hb2 : buf2 ++ ds2.flatten = (u32Le ct.length ++ ct) ++ rest := by
    rw [hc2, hb1, List.append_assoc]
  have hframe : (u32Le ct.length ++ ct).length = chunkFrameLenField + ct.length := by
    simp [chunkFrameLenField]
  obtain ⟨htake, hdrop⟩ := Pull.take_drop_of_append_eq hb2 (by rw [hframe]; exact hl2)
  rw [hframe] at htake hdrop
  refine ⟨buf2, ds2, ?_, ?_, hdrop⟩
  · unfold readFrame
    rw [hin, hf1]
    dsimp only
    rw [hdeclared, if_neg (by omega), hf2]
  · rw [htake, List.drop_left' h4]

/-- One pass over a well-formed frame at index `j`: the frame leaves the
stream, and either the index overflows or its window is trimmed and
emitted. -/
theorem decodeStep_atFrames_eq {j : Nat} {w : List UInt8} {ws : List (List UInt8)}
    {rest : List UInt8} (hat : AtFrames E key iv j (w :: ws) rest st)
    (hw : w.length ≤ chunkPlaintextSize) (ht : st.takeBytes ≠ some 0) :
    ∃ buf ds', buf ++ ds'.flatten =
        (framesFrom E key iv st.expectedFinalIndex (j + 1) ws).flatten ++ rest ∧
      decodeStep E st = match checkedAdd u32Max j 1 with
        | none => .yield (.error (.encryption "chunk index overflow during decode"))
            { st with buf := buf, inner := Pull.deliver ds' }
        | some next => emitOrContinue (trimPlaintext
            { st with buf := buf, inner := Pull.deliver ds', chunkIndex := next,
                      emittedFinal := j == st.expectedFinalIndex } w) := by
  obtain ⟨ds, hin, hb⟩ := hat.bytes
  set ct := E.encrypt key (chunkNonce iv j) (chunkAad j (j == st.expectedFinalIndex)) w with hct_def
  have hct : ct.length ≤ chunkMaxWireCiphertext := by
    rw [hct_def, E.length_encrypt]
    unfold chunkMaxWireCiphertext gcmTagLen at *
    omega
  have hb' : st.buf ++ ds.flatten =
      u32Le ct.length ++ ct ++ ((framesFrom E key iv st.expectedFinalIndex (j + 1) ws).flatten ++ rest) := by
    rw [hb, framesFrom_cons, List.flatten_cons, frameOf, List.append_assoc]
  obtain ⟨buf, ds', hrf, hctb, hrest⟩ := readFrame_frame hin hct hb'
  refine ⟨_, ds', hrest, ?_⟩
  have hdec : decryptChunk E st.key st.baseIv st.chunkIndex (st.chunkIndex == st.expectedFinalIndex)
      ((buf.take (chunkFrameLenField + ct.length)).drop chunkFrameLenField) = .ok w := by
    rw [hctb, hat.key_eq, hat.baseIv_eq, hat.chunkIndex_eq, hct_def, decryptChunk_encrypt]
  unfold decodeStep
  rw [if_neg ht, readHeader_of_headerDone hat.headerDone]
  dsimp only
  rw [if_neg (by simp [hat.notFinal]), hrf]
  dsimp only
  unfold openFrame
  dsimp only
  rw [hdec]
  dsimp only
  rw [hat.chunkIndex_eq, hat.notFinal, Bool.false_or]
  cases checkedAdd u32Max j 1 <;> rfl

theorem decodeStep_atFrames {j : Nat} {w : List UInt8} {ws : List (List UInt8)}
    {rest : List UInt8} (hat : AtFrames E key iv j (w :: ws) rest st)
    (hw : w.length ≤ chunkPlaintextSize) (hj : j + 1 ≤ u32Max) (ht : st.takeBytes ≠ some 0) :
    ∃ buf ds', buf ++ ds'.flatten =
        (framesFrom E key iv st.expectedFinalIndex (j + 1) ws).flatten ++ rest ∧
      decodeStep E st = emitOrContinue (trimPlaintext
        { st with buf := buf, inner := Pull.deliver ds', chunkIndex := j + 1,
                  emittedFinal := j == st.expectedFinalIndex } w) := by
  obtain ⟨buf, ds', hrest, hstep⟩ := decodeStep_atFrames_eq hat hw ht
  rw [checkedAdd_of_le hj] at hstep
  exact ⟨buf, ds', hrest, hstep⟩

/-- A well-formed frame at index `u32::MAX` decrypts, but the index bump
after it overflows: the stream fails there. -/
theorem drained_atFrames_overflow {j : Nat} {w : List UInt8} {ws : List (List UInt8)}
    {rest : List UInt8} (hat : AtFrames E key iv j (w :: ws) rest st)
    (hw : w.length ≤ chunkPlaintextSize) (hj : j = u32Max) (ht : st.takeBytes ≠ some 0) :
    drained E st = .failed [] (.encryption "chunk index overflow during decode") := by
  obtain ⟨buf, ds', -, hstep⟩ := decodeStep_atFrames_eq hat hw ht
  rw [checkedAdd_of_lt (by omega)] at hstep
  exact drained_of_error hstep

/-- The trim keeps the decoder where it stands. -/
theorem AtFrames.trimPlaintext {j : Nat} {ws : List (List UInt8)} {rest : List UInt8}
    (h : AtFrames E key iv j ws rest st) (pt : List UInt8) :
    AtFrames E key iv j ws rest (DeltaGlider.Encrypting.trimPlaintext st pt).2 := by
  rw [trimPlaintext_frame]
  exact ⟨h.headerDone, h.notFinal, h.key_eq, h.baseIv_eq, h.chunkIndex_eq, h.bytes⟩

/-- Over a well-formed non-final frame: its window, trimmed, then the
stream from the next frame. -/
theorem drained_atFrames {j : Nat} {w : List UInt8} {ws : List (List UInt8)} {rest : List UInt8}
    (hat : AtFrames E key iv j (w :: ws) rest st) (hw : w.length ≤ chunkPlaintextSize)
    (hj : j + 1 ≤ u32Max) (hnf : j ≠ st.expectedFinalIndex) (ht : st.takeBytes ≠ some 0) :
    ∃ st', AtFrames E key iv (j + 1) ws rest st' ∧
      st'.expectedFinalIndex = st.expectedFinalIndex ∧
      st'.skipBytes = (trimPlaintext st w).2.skipBytes ∧
      st'.takeBytes = (trimPlaintext st w).2.takeBytes ∧
      drained E st = (drained E st').prepend (trimPlaintext st w).1 := by
  obtain ⟨buf, ds', hrest, hstep⟩ := decodeStep_atFrames hat hw hj ht
  have hsf : AtFrames E key iv (j + 1) ws rest
      { st with buf := buf, inner := Pull.deliver ds', chunkIndex := j + 1,
                emittedFinal := j == st.expectedFinalIndex } :=
    ⟨hat.headerDone, by simpa using hnf, hat.key_eq, hat.baseIv_eq, rfl, ⟨ds', rfl, hrest⟩⟩
  obtain ⟨hout, hskip, htake⟩ := trimPlaintext_congr st
    { st with buf := buf, inner := Pull.deliver ds', chunkIndex := j + 1,
              emittedFinal := j == st.expectedFinalIndex } w rfl rfl
  refine ⟨_, hsf.trimPlaintext w, ?_, hskip, htake, ?_⟩
  · rw [trimPlaintext_frame]
  · rw [drained_of_emitOrContinue hstep, hout]

/-- Over the final frame, or a frame that exhausts the range: its window,
trimmed, and the stream ends. -/
theorem drained_atFrames_last {j : Nat} {w : List UInt8} {ws : List (List UInt8)} {rest : List UInt8}
    (hat : AtFrames E key iv j (w :: ws) rest st) (hw : w.length ≤ chunkPlaintextSize)
    (hj : j + 1 ≤ u32Max) (ht : st.takeBytes ≠ some 0)
    (hlast : j = st.expectedFinalIndex ∨ (trimPlaintext st w).2.takeBytes = some 0) :
    drained E st = .ended (trimPlaintext st w).1 := by
  obtain ⟨buf, ds', -, hstep⟩ := decodeStep_atFrames hat hw hj ht
  obtain ⟨hout, -, htake⟩ := trimPlaintext_congr st
    { st with buf := buf, inner := Pull.deliver ds', chunkIndex := j + 1,
              emittedFinal := j == st.expectedFinalIndex } w rfl rfl
  -- after this frame the next pass ends the stream
  have hend : decodeStep E (trimPlaintext
      { st with buf := buf, inner := Pull.deliver ds', chunkIndex := j + 1,
                emittedFinal := j == st.expectedFinalIndex } w).2 = .stop := by
    rcases hlast with hfin | hzero
    · rw [trimPlaintext_frame]
      exact decodeStep_of_emittedFinal hat.headerDone (by simpa using hfin)
    · exact decodeStep_of_take_zero (htake.trans hzero)
  rw [drained_of_emitOrContinue hstep, drained_of_stop hend, hout]
  simp [Drained.prepend]

/-- **Over a run of non-final frames** whose plaintext the range does not
exhaust: their windows, trimmed, then the stream after them. -/
theorem drained_frames {vs : List (List UInt8)} {rest : List UInt8} :
    ∀ {ws : List (List UInt8)} {j : Nat} {st : DecryptState},
      AtFrames E key iv j (ws ++ vs) rest st →
      (∀ w ∈ ws, w.length ≤ chunkPlaintextSize) →
      j + ws.length ≤ st.expectedFinalIndex → j + ws.length ≤ u32Max →
      (∀ k, st.takeBytes = some k → (ws.flatten.drop st.skipBytes).length < k) →
      ∃ st', AtFrames E key iv (j + ws.length) vs rest st' ∧
        st'.expectedFinalIndex = st.expectedFinalIndex ∧
        st'.skipBytes = st.skipBytes - ws.flatten.length ∧
        st'.takeBytes = st.takeBytes.map (· - (ws.flatten.drop st.skipBytes).length) ∧
        drained E st = (drained E st').prepend (ws.flatten.drop st.skipBytes) := by
  intro ws
  induction ws with
  | nil =>
    intro j st hat _ _ _ _
    refine ⟨st, hat, rfl, by simp, ?_, by simp⟩
    cases st.takeBytes <;> simp
  | cons w ws ih =>
    intro j st hat hw hfin hj htake
    simp only [List.length_cons, List.flatten_cons] at hfin hj htake ⊢
    have hw0 : w.length ≤ chunkPlaintextSize := hw w List.mem_cons_self
    -- the range outlasts this frame's window
    have hlen : ∀ k, st.takeBytes = some k →
        (w.drop st.skipBytes).length + (ws.flatten.drop (st.skipBytes - w.length)).length < k := by
      intro k hk
      have := htake k hk
      rw [List.drop_append, List.length_append] at this
      exact this
    have ht : st.takeBytes ≠ some 0 := by
      intro h0
      have := hlen 0 h0
      omega
    obtain ⟨hout, hskip, htk⟩ := trimPlaintext_of_le st w (fun k hk => by have := hlen k hk; omega)
    have hat0 : AtFrames E key iv j (w :: (ws ++ vs)) rest st := hat
    obtain ⟨st1, hat1, hf1, hs1, ht1, hd1⟩ := drained_atFrames hat0 hw0 (by omega) (by omega) ht
    obtain ⟨st', hat', hf', hs', ht', hd'⟩ := ih hat1 (fun w' h' => hw w' (List.mem_cons_of_mem w h'))
      (by omega) (by omega) (by
        intro k hk
        rw [ht1, htk] at hk
        obtain ⟨k0, hk0, rfl⟩ := Option.map_eq_some_iff.mp hk
        rw [hs1, hskip]
        have := hlen k0 hk0
        omega)
    refine ⟨st', ?_, hf'.trans hf1, ?_, ?_, ?_⟩
    · have e : j + (ws.length + 1) = j + 1 + ws.length := by omega
      rw [e]
      exact hat'
    · rw [hs', hs1, hskip, List.length_append]
      omega
    · rw [ht', ht1, htk, hs1, hskip, Option.map_map, List.drop_append,
        List.length_append]
      congr 1
      funext k
      simp only [Function.comp]
      omega
    · rw [hd1, hd', Drained.prepend_append, hout, hs1, hskip, List.drop_append]

end Frames

end DeltaGlider.Encrypting
