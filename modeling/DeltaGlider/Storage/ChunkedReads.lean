import Mathlib
import DeltaGlider.Storage.ChunkedWriters

/-!
# Reading chunked objects back

What the readers of `src/storage/encrypting.rs` make of chunked objects:
the full-object decoder `chunked_decrypt_stream` over the encoding of a
plaintext and over byte strings built from its frames, and the range
reader `get_passthrough_stream_range`.  Every stream arrives cut into
arbitrary deliveries.

The decoder is run frame by frame with `AtFrames` as the invariant.  It
never looks past the final frame, so whatever follows the final frame
ends the stream cleanly; and it bumps its index after every frame it
opens, the final one included, so an object whose final frame has index
`u32::MAX` (which the writers produce) fails after its last window.

The main results:

    chunkedDecryptStream_encodeChunked   the encoding of `P`, and anything after it, decodes to `P`
    chunkedDecryptStream_final_overflow  with `2³²` windows the decoder fails after the final frame
    put_passthrough_round_trip           the writers' output for every object S3 holds decodes back
    putPassthroughChunked_roundtrip_overflow   past `2⁴⁸` bytes the chunked writer produces such objects
    drained_reassembled                  frames of `P` reordered, repeated, dropped or cut short
                                         end cleanly only after the whole encoding
    chunkedDecryptStream_reassembled     the same for the full-object decoder, header included
    getPassthroughStreamRange_chunked    a range read yields `P[start ..= effective_end]`
    getPassthroughStreamRange_empty      and for the empty object announces one byte it never yields
-/

namespace DeltaGlider.Encrypting

open RustStd Blocks

/-! ## Failing passes -/

section Failures

variable {E : Cipher} {st : DecryptState}

/-- A stream that ends inside the header fails. -/
theorem drained_header_short {ds : List (List UInt8)} (hd : st.headerDone = false)
    (ht : st.takeBytes ≠ some 0) (hin : st.inner = Pull.deliver ds)
    (hb : (st.buf ++ ds.flatten).length < chunkHeaderLen) :
    ∃ e, drained E st = .failed [] e := by
  rw [List.length_append] at hb
  have hfill := @Pull.fill_ended StorageError UInt8 chunkHeaderLen ds st.buf hb
  obtain ⟨e, s, hrh⟩ : ∃ e s, readHeader st = .error (e, s) := by
    unfold readHeader
    rw [if_neg (by simp [hd]), hin, hfill]
    exact ⟨_, _, rfl⟩
  exact ⟨e, drained_of_error (decodeStep_of_readHeader_error ht hrh)⟩

/-- Fewer bytes than a length prefix: the stream is truncated before the
next frame. -/
theorem readFrame_short {ds : List (List UInt8)} (hin : st.inner = Pull.deliver ds)
    (hb : (st.buf ++ ds.flatten).length < chunkFrameLenField) :
    ∃ e st', readFrame st = .error (e, st') := by
  rw [List.length_append] at hb
  have hfill := @Pull.fill_ended StorageError UInt8 chunkFrameLenField ds st.buf hb
  unfold readFrame
  rw [hin, hfill]
  exact ⟨_, _, rfl⟩

/-- A whole length prefix under the ceiling and too few bytes after it: the
stream is truncated inside the frame body. -/
theorem readFrame_truncated {ds : List (List UInt8)} {ct : List UInt8} {m : Nat}
    (hin : st.inner = Pull.deliver ds) (hct : ct.length ≤ chunkMaxWireCiphertext)
    (hm : chunkFrameLenField ≤ m) (hm' : m < chunkFrameLenField + ct.length)
    (hb : st.buf ++ ds.flatten = (u32Le ct.length ++ ct).take m) :
    ∃ e st', readFrame st = .error (e, st') := by
  have h4 : (u32Le ct.length).length = chunkFrameLenField := rfl
  -- the cut leaves the length prefix whole
  have hcut : (u32Le ct.length ++ ct).take m =
      u32Le ct.length ++ ct.take (m - chunkFrameLenField) := by
    rw [List.take_append, List.take_of_length_le (by omega), h4]
  have hlen : st.buf.length + ds.flatten.length = m := by
    have := congrArg List.length hb
    rw [hcut, List.length_append, List.length_append, List.length_take, h4] at this
    omega
  obtain ⟨buf1, ds1, hf1, hl1, hc1⟩ := @Pull.fill_filled StorageError UInt8 chunkFrameLenField ds
    st.buf (by omega)
  have hb1 : buf1 ++ ds1.flatten = u32Le ct.length ++ ct.take (m - chunkFrameLenField) := by
    rw [hc1, hb, hcut]
  have hlenField := (Pull.take_drop_of_append_eq hb1 (by rw [h4]; exact hl1)).1
  rw [h4] at hlenField
  have hdeclared : u32FromLe (buf1.take chunkFrameLenField) = ct.length := by
    rw [hlenField, u32FromLe_u32Le (by
      unfold u32Max chunkMaxWireCiphertext chunkPlaintextSize gcmTagLen at *
      omega)]
  -- the body fill runs out of bytes
  have hlen1 : buf1.length + ds1.flatten.length < chunkFrameLenField + ct.length := by
    have := congrArg List.length hc1
    simp only [List.length_append] at this
    omega
  unfold readFrame
  rw [hin, hf1]
  dsimp only
  rw [hdeclared, if_neg (by omega), @Pull.fill_ended StorageError UInt8 _ ds1 buf1 hlen1]
  exact ⟨_, _, rfl⟩

/-- **A frame cut short fails**: a stream that ends anywhere inside a frame
whose length prefix is honest yields an error. -/
theorem drained_cut {ds : List (List UInt8)} {ct : List UInt8} {m : Nat}
    (hd : st.headerDone = true) (hf : st.emittedFinal = false) (ht : st.takeBytes ≠ some 0)
    (hin : st.inner = Pull.deliver ds) (hct : ct.length ≤ chunkMaxWireCiphertext)
    (hm : m < chunkFrameLenField + ct.length)
    (hb : st.buf ++ ds.flatten = (u32Le ct.length ++ ct).take m) :
    ∃ e, drained E st = .failed [] e := by
  -- a cut inside the length prefix or inside the body
  have hrf : ∃ e st', readFrame st = .error (e, st') := by
    by_cases h4 : m < chunkFrameLenField
    · apply readFrame_short hin
      rw [hb, List.length_take]
      omega
    · exact readFrame_truncated hin hct (by omega) hm hb
  obtain ⟨e, s, hrf⟩ := hrf
  exact ⟨e, drained_of_error (decodeStep_of_readFrame_error hd hf ht hrf)⟩

/-- **A frame out of place fails**: a whole frame sealed at another index
or final flag than the decoder expects does not open. -/
theorem drained_mismatch {ds : List (List UInt8)} {k : Nat} {fin : Bool} {w rest : List UInt8}
    (hd : st.headerDone = true) (hf : st.emittedFinal = false) (ht : st.takeBytes ≠ some 0)
    (hin : st.inner = Pull.deliver ds) (hw : w.length ≤ chunkPlaintextSize)
    (hb : st.buf ++ ds.flatten = frameOf E st.key st.baseIv k fin w ++ rest)
    (hk : k ≤ u32Max) (hj : st.chunkIndex ≤ u32Max)
    (hne : (st.chunkIndex, st.chunkIndex == st.expectedFinalIndex) ≠ (k, fin)) :
    ∃ e, drained E st = .failed [] e := by
  set ct := E.encrypt st.key (chunkNonce st.baseIv k) (chunkAad k fin) w with hct_def
  have hct : ct.length ≤ chunkMaxWireCiphertext := by
    rw [hct_def, E.length_encrypt]
    unfold chunkMaxWireCiphertext gcmTagLen at *
    omega
  obtain ⟨buf, ds', hrf, hctb, -⟩ := readFrame_frame hin hct (by rw [hb, frameOf])
  obtain ⟨e, hdec⟩ : ∃ e, decryptChunk E st.key st.baseIv st.chunkIndex
      (st.chunkIndex == st.expectedFinalIndex) ct = .error e :=
    decryptChunk_encrypt_of_ne w hj hk hne
  obtain ⟨s, hopen⟩ : ∃ s, openFrame E { st with buf := buf, inner := Pull.deliver ds' }
      (chunkFrameLenField + ct.length) = .error (e, s) := by
    unfold openFrame
    dsimp only
    rw [hctb, hdec]
    exact ⟨_, rfl⟩
  exact ⟨e, drained_of_error (decodeStep_of_openFrame_error hd hf ht hrf hopen)⟩

end Failures

/-! ## Runs of frames to the end of the stream -/

section Runs

variable {E : Cipher} {key : EncryptionKey} {iv : List UInt8}

/-- `AtFrames` over no frames, with the frames spelled out in the bytes. -/
theorem AtFrames.of_bytes {j : Nat} {ws : List (List UInt8)} {rest : List UInt8} {st : DecryptState}
    (h : AtFrames E key iv j []
      ((framesFrom E key iv st.expectedFinalIndex j ws).flatten ++ rest) st) :
    AtFrames E key iv j ws rest st := by
  obtain ⟨ds, hin, hb⟩ := h.bytes
  refine ⟨h.headerDone, h.notFinal, h.key_eq, h.baseIv_eq, h.chunkIndex_eq, ⟨ds, hin, ?_⟩⟩
  simpa using hb

/-- **A run that ends at the final frame**: with no range limit, the
windows from frame `j` to the final one, after the skip, and then the end
of the stream, whatever follows. -/
theorem drained_frames_final {ws : List (List UInt8)} {w rest : List UInt8} {j : Nat}
    {st : DecryptState} (hat : AtFrames E key iv j (ws ++ [w]) rest st)
    (hw : ∀ v ∈ ws ++ [w], v.length ≤ chunkPlaintextSize)
    (hfin : st.expectedFinalIndex = j + ws.length) (hj : j + ws.length + 1 ≤ u32Max)
    (ht : st.takeBytes = none) :
    drained E st = .ended ((ws ++ [w]).flatten.drop st.skipBytes) := by
  obtain ⟨st', hat', hf', hs', ht', hd⟩ := drained_frames hat
    (fun v hv => hw v (List.mem_append_left _ hv)) (by omega) (by omega) (by simp [ht])
  have hlast := drained_atFrames_last hat' (hw w (by simp)) hj (by simp [ht', ht])
    (.inl (by rw [hf', hfin]))
  obtain ⟨hout, -, -⟩ := trimPlaintext_of_le st' w (by simp [ht', ht])
  rw [hd, hlast, hout, hs', List.flatten_append, List.flatten_singleton, List.drop_append]
  rfl

/-- **A run that ends the range**: with `take_bytes = some k`, the windows
from frame `j` to the frame where the range runs out (or the final one),
after the skip and cut to `k` bytes, and then the end of the stream. -/
theorem drained_frames_take {ws vs : List (List UInt8)} {w rest : List UInt8} {j k : Nat}
    {st : DecryptState} (hat : AtFrames E key iv j (ws ++ w :: vs) rest st)
    (hw : ∀ v ∈ ws ++ [w], v.length ≤ chunkPlaintextSize)
    (hfin : j + ws.length ≤ st.expectedFinalIndex) (hj : j + ws.length + 1 ≤ u32Max)
    (ht : st.takeBytes = some k) (hlt : (ws.flatten.drop st.skipBytes).length < k)
    (hend : k ≤ ((ws ++ [w]).flatten.drop st.skipBytes).length ∨
      j + ws.length = st.expectedFinalIndex) :
    drained E st = .ended (((ws ++ [w]).flatten.drop st.skipBytes).take k) := by
  obtain ⟨st', hat', hf', hs', ht', hd⟩ := drained_frames hat
    (fun v hv => hw v (List.mem_append_left _ hv)) hfin (by omega)
    (fun k' hk' => by rw [ht] at hk'; cases hk'; exact hlt)
  -- what is left of the range after the run
  have hk' : st'.takeBytes = some (k - (ws.flatten.drop st.skipBytes).length) := by
    rw [ht', ht]
    rfl
  obtain ⟨hout, htake⟩ := trimPlaintext_of_take st' w hk'
  have hsplit : (ws ++ [w]).flatten.drop st.skipBytes =
      ws.flatten.drop st.skipBytes ++ w.drop st'.skipBytes := by
    rw [hs', List.flatten_append, List.flatten_singleton, List.drop_append]
  have hlast : j + ws.length = st'.expectedFinalIndex ∨
      (trimPlaintext st' w).2.takeBytes = some 0 := by
    rcases hend with hle | hfinal
    · right
      rw [hsplit, List.length_append] at hle
      rw [htake, Option.some.injEq]
      omega
    · left
      rw [hf', hfinal]
  rw [hd, drained_atFrames_last hat' (hw w (by simp)) hj (by rw [hk']; intro h; have := Option.some.inj h; omega) hlast, hout,
    hsplit, List.take_append, List.take_of_length_le hlt.le]
  rfl

end Runs

/-! ## The windows of an object -/

section Windows

theorem windowsOf_eq_append (P : List UInt8) : ∃ vs w, windowsOf P = vs ++ [w] := by
  have hne : windowsOf P ≠ [] := by
    unfold windowsOf
    split
    · exact List.cons_ne_nil _ _
    · next hP => rw [blocks_eq_cons (by decide) hP]; exact List.cons_ne_nil _ _
  obtain ⟨w, hw⟩ := Option.isSome_iff_exists.mp (List.getLast?_isSome.mpr hne)
  exact ⟨(windowsOf P).dropLast, w, (List.dropLast_append_getLast? w hw).symm⟩

theorem length_le_of_mem_windowsOf {P w : List UInt8} (h : w ∈ windowsOf P) :
    w.length ≤ chunkPlaintextSize := by
  unfold windowsOf at h
  split at h
  · simp at h
    simp [h]
  · exact length_le_of_mem_blocks h

/-- Windows `a` to `a + b` are the bytes from `a * 64 KiB` on, `b * 64 KiB` of
them. -/
theorem flatten_drop_take_windowsOf (P : List UInt8) (a b : Nat) :
    (((windowsOf P).drop a).take b).flatten =
      (P.drop (a * chunkPlaintextSize)).take (b * chunkPlaintextSize) := by
  unfold windowsOf
  split
  · next hP =>
    subst hP
    cases a <;> cases b <;> simp
  · rw [drop_blocks (by decide), flatten_take_blocks (by decide)]

end Windows

/-! ## The full-object decoder -/

section Stream

variable {E : Cipher} {key : EncryptionKey} {iv : List UInt8}

theorem encodeChunked_append (P rest : List UInt8) :
    encodeChunked E key iv P ++ rest = chunkMagic ++ iv ++
      ((framesFrom E key iv ((windowsOf P).length - 1) 0 (windowsOf P)).flatten ++ rest) := by
  simp [encodeChunked]

/-- Filling the 16 header bytes of an encoding under a 12-byte `iv`,
however the stream cuts it: the magic, then `iv`, then the rest. -/
theorem fill_header {body : List UInt8} (ds : List (List UInt8)) (hiv : iv.length = ivLen)
    (hds : ds.flatten = chunkMagic ++ iv ++ body) :
    ∃ buf ds', Pull.fill chunkHeaderLen [] (Pull.deliver ds : List (Except StorageError (List UInt8))) =
      .filled buf (Pull.deliver ds') ∧
      buf.take 4 = chunkMagic ∧ (buf.take chunkHeaderLen).drop 4 = iv ∧
      buf.drop chunkHeaderLen ++ ds'.flatten = body := by
  have hlen : (chunkMagic ++ iv).length = chunkHeaderLen := by
    rw [List.length_append, hiv]
    rfl
  obtain ⟨buf, ds', hfill, hle, hcat⟩ := @Pull.fill_filled StorageError UInt8 chunkHeaderLen ds []
    (by rw [hds, List.length_nil, Nat.zero_add, List.length_append, hlen]; omega)
  rw [List.nil_append, hds] at hcat
  obtain ⟨htake, hdrop⟩ := Pull.take_drop_of_append_eq hcat (by rw [hlen]; exact hle)
  rw [hlen] at htake hdrop
  refine ⟨buf, ds', hfill, ?_, ?_, hdrop⟩
  · -- the magic is the head of the header
    have e : (buf.take chunkHeaderLen).take 4 = buf.take 4 := by
      rw [List.take_take]
      rfl
    rw [← e, htake]
    exact List.take_left' rfl
  · rw [htake]
    exact List.drop_left' rfl

/-- The header of an encoding under a 12-byte `iv`, however the stream cuts
it, is read whole: `chunked_decrypt_stream` goes on from frame 0 with base
IV `iv` over the bytes after the header. -/
theorem chunkedDecryptStream_header (E : Cipher) (key : EncryptionKey) {iv body : List UInt8}
    (f skip : Nat) (take : Option Nat) (hiv : iv.length = ivLen) {ds : List (List UInt8)}
    (hds : ds.flatten = chunkMagic ++ iv ++ body) :
    ∃ st, AtFrames E key iv 0 [] body st ∧ st.expectedFinalIndex = f ∧ st.skipBytes = skip ∧
      st.takeBytes = take ∧ chunkedDecryptStream E (Pull.deliver ds) key f skip take = drained E st := by
  obtain ⟨buf, ds', hfill, hmagic, hivb, hdrop⟩ := fill_header ds hiv hds
  refine ⟨{ inner := Pull.deliver ds', key, buf := buf.drop chunkHeaderLen, headerDone := true,
            baseIv := iv, chunkIndex := 0, expectedFinalIndex := f, emittedFinal := false,
            skipBytes := skip, takeBytes := take },
    ⟨rfl, rfl, rfl, rfl, rfl, ⟨ds', rfl, by simpa using hdrop⟩⟩, rfl, rfl, rfl,
    drained_congr_step (decodeStep_of_readHeader_ok ?_)⟩
  unfold readHeader
  dsimp only
  rw [if_neg (by simp), hfill]
  dsimp only
  rw [if_neg (by simp [hmagic]), hivb]

theorem chunkedDecryptStream_header_short (E : Cipher) (key : EncryptionKey) (f skip : Nat)
    (take : Option Nat) (ht : take ≠ some 0) (ds : List (List UInt8))
    (hds : ds.flatten.length < chunkHeaderLen) :
    ∃ e, chunkedDecryptStream E (Pull.deliver ds) key f skip take = .failed [] e :=
  drained_header_short rfl ht rfl (by simpa using hds)

/-- **Round trip**: the chunked encoding of `P` under a 12-byte `iv`, with at
most `u32::MAX` windows, cut into deliveries anywhere and followed by any
bytes, decodes to exactly `P` under the final index the readers derive
from `|P|`. -/
theorem chunkedDecryptStream_encodeChunked {P rest : List UInt8} (hiv : iv.length = ivLen)
    (hn : (windowsOf P).length ≤ u32Max) {ds : List (List UInt8)}
    (hds : ds.flatten = encodeChunked E key iv P ++ rest) :
    chunkedDecryptStream E (Pull.deliver ds) key (finalChunkIndexForPlaintextSize P.length) 0 none =
      .ended P := by
  have hlay : ChunkLayout E key iv P := chunkLayout hiv (by omega)
  rw [encodeChunked_append] at hds
  obtain ⟨st, hat, hf, hs, ht, heq⟩ := chunkedDecryptStream_header E key
    (finalChunkIndexForPlaintextSize P.length) 0 none hiv hds
  obtain ⟨vs, w, hvw⟩ := windowsOf_eq_append P
  rw [hlay.finalIndex, ← hf, hvw] at hat
  have hfin : st.expectedFinalIndex = 0 + vs.length := by
    rw [hf, ← hlay.finalIndex, hvw]
    simp
  have hlen : (vs ++ [w]).length ≤ u32Max := hvw ▸ hn
  rw [heq, drained_frames_final hat.of_bytes
    (fun v hv => length_le_of_mem_windowsOf (hvw ▸ hv)) hfin
    (by simp at hlen; omega) ht, hs, List.drop_zero, ← hvw, hlay.flatten]

/-- With `2³²` windows the final frame has index `u32::MAX`: the decoder
yields every window before it and then fails on the index bump after it. -/
theorem chunkedDecryptStream_final_overflow {P : List UInt8} (hiv : iv.length = ivLen)
    (hn : (windowsOf P).length = u32Max + 1) {ds : List (List UInt8)}
    (hds : ds.flatten = encodeChunked E key iv P) :
    chunkedDecryptStream E (Pull.deliver ds) key (finalChunkIndexForPlaintextSize P.length) 0 none =
      .failed (P.take (u32Max * chunkPlaintextSize))
        (.encryption "chunk index overflow during decode") := by
  have hlay : ChunkLayout E key iv P := chunkLayout hiv (by omega)
  rw [← List.append_nil (encodeChunked E key iv P), encodeChunked_append] at hds
  obtain ⟨st, hat, hf, hs, ht, heq⟩ := chunkedDecryptStream_header E key
    (finalChunkIndexForPlaintextSize P.length) 0 none hiv hds
  obtain ⟨vs, w, hvw⟩ := windowsOf_eq_append P
  have hvs : vs.length = u32Max := by
    have := congrArg List.length hvw
    simp only [List.length_append, List.length_singleton] at this
    omega
  have hfin : st.expectedFinalIndex = u32Max := by
    rw [hf, ← hlay.finalIndex, hn]
    rfl
  rw [hlay.finalIndex, ← hf, hvw] at hat
  -- every window but the last comes out ...
  obtain ⟨st', hat', -, -, ht', hd⟩ := drained_frames hat.of_bytes
    (fun v hv => length_le_of_mem_windowsOf (hvw ▸ List.mem_append_left _ hv)) (by omega) (by omega)
    (by simp [ht])
  -- ... and the final frame opens, but the index after it overflows
  have hover := drained_atFrames_overflow hat' (length_le_of_mem_windowsOf (by rw [hvw]; simp))
    (by omega) (by simp [ht', ht])
  have hfront : vs.flatten = P.take (u32Max * chunkPlaintextSize) := by
    have := flatten_drop_take_windowsOf P 0 u32Max
    rw [List.drop_zero, hvw, List.take_left' hvs, Nat.zero_mul, List.drop_zero] at this
    exact this
  rw [heq, hd, hover, hs, List.drop_zero, hfront]
  simp [Drained.prepend]

end Stream

/-! ## Frames reassembled -/

/-- Frame `k` of the chunked encoding of `P`. -/
def encodedFrame (E : Cipher) (key : EncryptionKey) (iv P : List UInt8) (k : Nat) : List UInt8 :=
  frameOf E key iv k (k == (windowsOf P).length - 1) ((windowsOf P).getD k [])

section Reassembled

variable {E : Cipher} {key : EncryptionKey} {iv : List UInt8}

theorem framesFrom_drop_windowsOf {P : List UInt8} {j : Nat} (hj : j < (windowsOf P).length) :
    framesFrom E key iv ((windowsOf P).length - 1) j ((windowsOf P).drop j) =
      encodedFrame E key iv P j ::
        framesFrom E key iv ((windowsOf P).length - 1) (j + 1) ((windowsOf P).drop (j + 1)) := by
  rw [List.drop_eq_getElem_cons hj, framesFrom_cons, encodedFrame, List.getD_eq_getElem _ _ hj]

/-- **Frames of `P` reassembled**: fed frames of the encoding of `P` in any
order, repeated or dropped, and cut short after `m` bytes, the decoder at
frame `j` ends cleanly only if the bytes start with the frames `j, j+1, …`
of the encoding, and then it has emitted exactly the windows from `j` on. -/
theorem drained_reassembled {P : List UInt8} (hn : (windowsOf P).length ≤ u32Max) :
    ∀ (G : List Nat) (m j : Nat) (st : DecryptState), (∀ k ∈ G, k < (windowsOf P).length) →
      AtFrames E key iv j [] ((G.map (encodedFrame E key iv P)).flatten.take m) st →
      st.expectedFinalIndex = (windowsOf P).length - 1 → j ≤ st.expectedFinalIndex →
      st.skipBytes = 0 → st.takeBytes = none →
      ∀ out, drained E st = .ended out →
        out = ((windowsOf P).drop j).flatten ∧
        ∃ rest, (G.map (encodedFrame E key iv P)).flatten.take m =
          (framesFrom E key iv ((windowsOf P).length - 1) j ((windowsOf P).drop j)).flatten ++
            rest := by
  intro G
  induction G with
  | nil =>
    intro m j st _ hat _ _ _ ht out hout
    -- nothing is left to read: the stream is truncated before frame `j`
    obtain ⟨ds, hin, hb⟩ := hat.bytes
    obtain ⟨e, s, hrf⟩ := readFrame_short hin (by rw [hb]; simp [chunkFrameLenField])
    rw [drained_of_error (decodeStep_of_readFrame_error hat.headerDone hat.notFinal (by simp [ht])
      hrf)] at hout
    cases hout
  | cons k G ih =>
    intro m j st hG hat hf hj hs ht out hout
    obtain ⟨ds, hin, hb⟩ := hat.bytes
    simp only [framesFrom_nil, List.flatten_nil, List.nil_append] at hb
    have hk : k < (windowsOf P).length := hG k List.mem_cons_self
    have ht0 : st.takeBytes ≠ some 0 := by simp [ht]
    have hwk : ((windowsOf P).getD k []).length ≤ chunkPlaintextSize := by
      rw [List.getD_eq_getElem _ _ hk]
      exact length_le_of_mem_windowsOf (List.getElem_mem hk)
    by_cases hm : (encodedFrame E key iv P k).length ≤ m
    · -- frame `k` arrives whole
      have hbytes : ((k :: G).map (encodedFrame E key iv P)).flatten.take m =
          encodedFrame E key iv P k ++
            (G.map (encodedFrame E key iv P)).flatten.take (m - (encodedFrame E key iv P k).length) := by
        rw [List.map_cons, List.flatten_cons, List.take_append, List.take_of_length_le hm]
      rw [hbytes] at hb
      by_cases hkj : k = j
      · subst hkj
        -- the frame the decoder expects
        have hat1 : AtFrames E key iv k [(windowsOf P).getD k []]
            ((G.map (encodedFrame E key iv P)).flatten.take
              (m - (encodedFrame E key iv P k).length)) st :=
          ⟨hat.headerDone, hat.notFinal, hat.key_eq, hat.baseIv_eq, hat.chunkIndex_eq,
            ⟨ds, hin, by rw [hb, hf]; simp [encodedFrame]⟩⟩
        obtain ⟨hout1, hs1, ht1⟩ := trimPlaintext_of_le st ((windowsOf P).getD k []) (by simp [ht])
        by_cases hkf : k = st.expectedFinalIndex
        · -- the final frame: the stream ends after it
          rw [drained_atFrames_last hat1 hwk (by omega) ht0 (.inl hkf), hout1, hs,
            List.drop_zero] at hout
          cases hout
          have hlast : (windowsOf P).drop (k + 1) = [] := List.drop_of_length_le (by omega)
          refine ⟨?_, (G.map (encodedFrame E key iv P)).flatten.take
            (m - (encodedFrame E key iv P k).length), ?_⟩
          · rw [List.drop_eq_getElem_cons hk, hlast, List.getD_eq_getElem _ _ hk]
            simp
          · rw [hbytes, framesFrom_drop_windowsOf hk, hlast]
            simp
        · -- a frame before the final one: its window, then the rest by induction
          obtain ⟨st', hat', hf', hs', ht', hd⟩ := drained_atFrames hat1 hwk (by omega) hkf ht0
          rw [hd, hout1, hs, List.drop_zero] at hout
          obtain ⟨out', hout', rfl⟩ := Drained.prepend_eq_ended hout
          obtain ⟨ih1, rest, ih2⟩ := ih _ (k + 1) st'
            (fun k' hk' => hG k' (List.mem_cons_of_mem _ hk')) hat' (hf'.trans hf)
            (by rw [hf']; omega) (by rw [hs', hs1, hs, Nat.zero_sub]) (by rw [ht', ht1, ht]; rfl)
            out' hout'
          refine ⟨?_, rest, ?_⟩
          · rw [ih1, List.drop_eq_getElem_cons hk, List.flatten_cons, List.getD_eq_getElem _ _ hk]
          · rw [hbytes, ih2, framesFrom_drop_windowsOf hk, List.flatten_cons, List.append_assoc]
      · -- a whole frame sealed for another index does not open
        have hb' : st.buf ++ ds.flatten = frameOf E st.key st.baseIv k
            (k == (windowsOf P).length - 1) ((windowsOf P).getD k []) ++
              (G.map (encodedFrame E key iv P)).flatten.take
                (m - (encodedFrame E key iv P k).length) := by
          rw [hb, hat.key_eq, hat.baseIv_eq]
          rfl
        obtain ⟨e, he⟩ := drained_mismatch hat.headerDone hat.notFinal ht0 hin hwk hb' (by omega)
          (by rw [hat.chunkIndex_eq]; omega)
          (by rw [hat.chunkIndex_eq]; intro h; exact hkj (Prod.mk.inj h).1.symm)
        rw [he] at hout
        cases hout
    · -- frame `k` is cut short
      set ct := E.encrypt key (chunkNonce iv k) (chunkAad k (k == (windowsOf P).length - 1))
        ((windowsOf P).getD k []) with hct_def
      have hframe : encodedFrame E key iv P k = u32Le ct.length ++ ct := rfl
      have hct : ct.length ≤ chunkMaxWireCiphertext := by
        rw [hct_def, E.length_encrypt]
        unfold chunkMaxWireCiphertext gcmTagLen at *
        omega
      have hlt : m < chunkFrameLenField + ct.length := by
        rw [hframe, List.length_append, length_u32Le] at hm
        unfold chunkFrameLenField
        omega
      rw [List.map_cons, List.flatten_cons, List.take_append,
        Nat.sub_eq_zero_of_le (Nat.le_of_not_le hm), List.take_zero, List.append_nil, hframe] at hb
      obtain ⟨e, he⟩ := drained_cut hat.headerDone hat.notFinal ht0 hin hct hlt hb
      rw [he] at hout
      cases hout

/-- The full-object decoder over the frames `js` of the encoding of `P`
behind its header, cut short after `m` bytes: it ends cleanly, with
exactly `P`, when the bytes start with the whole encoding, and yields an
error otherwise. -/
theorem chunkedDecryptStream_reassembled {P : List UInt8} (hiv : iv.length = ivLen)
    (hn : (windowsOf P).length ≤ u32Max) (js : List Nat)
    (hjs : ∀ k ∈ js, k < (windowsOf P).length) (m : Nat) {ds : List (List UInt8)}
    (hds : ds.flatten = (chunkMagic ++ iv ++ (js.map (encodedFrame E key iv P)).flatten).take m) :
    (encodeChunked E key iv P <+: ds.flatten →
      chunkedDecryptStream E (Pull.deliver ds) key (finalChunkIndexForPlaintextSize P.length) 0
        none = .ended P) ∧
    (¬ encodeChunked E key iv P <+: ds.flatten →
      ∃ out e, chunkedDecryptStream E (Pull.deliver ds) key
        (finalChunkIndexForPlaintextSize P.length) 0 none = .failed out e) := by
  have hlay : ChunkLayout E key iv P := chunkLayout hiv (by omega)
  have hlen : (chunkMagic ++ iv).length = chunkHeaderLen := by
    rw [List.length_append, hiv]
    rfl
  refine ⟨fun ⟨rest, hrest⟩ => chunkedDecryptStream_encodeChunked hiv hn hrest.symm, fun hnp => ?_⟩
  -- the decoder ends or fails; a clean end would put the encoding in front
  cases hd : chunkedDecryptStream E (Pull.deliver ds) key (finalChunkIndexForPlaintextSize P.length)
      0 none with
  | failed out e => exact ⟨out, e, rfl⟩
  | outOfFuel => exact absurd hd (drained_ne_outOfFuel _)
  | ended out =>
    exfalso
    by_cases hm : m < chunkHeaderLen
    · -- cut inside the header
      obtain ⟨e, he⟩ := chunkedDecryptStream_header_short E key
        (finalChunkIndexForPlaintextSize P.length) 0 none (by simp) ds (by
          rw [hds, List.length_take]
          omega)
      rw [he] at hd
      cases hd
    · have hds' : ds.flatten = chunkMagic ++ iv ++
          (js.map (encodedFrame E key iv P)).flatten.take (m - chunkHeaderLen) := by
        rw [hds, List.take_append, List.take_of_length_le (by omega), hlen]
      obtain ⟨st, hat, hf, hs, ht, heq⟩ := chunkedDecryptStream_header E key
        (finalChunkIndexForPlaintextSize P.length) 0 none hiv hds'
      rw [heq] at hd
      obtain ⟨-, rest, hbytes⟩ := drained_reassembled hn js (m - chunkHeaderLen) 0 st hjs hat
        (hf.trans hlay.finalIndex.symm) (by omega) hs ht out hd
      apply hnp
      refine ⟨rest, ?_⟩
      rw [hds', hbytes, List.drop_zero, encodeChunked, List.append_assoc]

theorem chunkedDecryptStream_reassembled_repeated :
    (List.replicate 12 (0 : UInt8)).length = ivLen ∧ (windowsOf [(7 : UInt8)]).length ≤ u32Max ∧
    (∀ k ∈ [0, 0], k < (windowsOf [(7 : UInt8)]).length) ∧
    [(chunkMagic ++ List.replicate 12 0 ++ ([0, 0].map (encodedFrame (Aead.tagged EncryptionKey gcmTagLen)
        ⟨[]⟩ (List.replicate 12 0) [7])).flatten).take 100].flatten =
      (chunkMagic ++ List.replicate 12 0 ++ ([0, 0].map (encodedFrame (Aead.tagged EncryptionKey gcmTagLen)
        ⟨[]⟩ (List.replicate 12 0) [7])).flatten).take 100 ∧
    (encodeChunked (Aead.tagged EncryptionKey gcmTagLen) ⟨[]⟩ (List.replicate 12 0) [7] <+:
        [(chunkMagic ++ List.replicate 12 0 ++ ([0, 0].map (encodedFrame (Aead.tagged EncryptionKey gcmTagLen)
          ⟨[]⟩ (List.replicate 12 0) [7])).flatten).take 100].flatten →
      chunkedDecryptStream (Aead.tagged EncryptionKey gcmTagLen)
        (Pull.deliver [(chunkMagic ++ List.replicate 12 0 ++ ([0, 0].map (encodedFrame
          (Aead.tagged EncryptionKey gcmTagLen) ⟨[]⟩ (List.replicate 12 0) [7])).flatten).take 100])
        ⟨[]⟩ (finalChunkIndexForPlaintextSize [(7 : UInt8)].length) 0 none = .ended [7]) ∧
    (¬ encodeChunked (Aead.tagged EncryptionKey gcmTagLen) ⟨[]⟩ (List.replicate 12 0) [7] <+:
        [(chunkMagic ++ List.replicate 12 0 ++ ([0, 0].map (encodedFrame (Aead.tagged EncryptionKey gcmTagLen)
          ⟨[]⟩ (List.replicate 12 0) [7])).flatten).take 100].flatten →
      ∃ out e, chunkedDecryptStream (Aead.tagged EncryptionKey gcmTagLen)
        (Pull.deliver [(chunkMagic ++ List.replicate 12 0 ++ ([0, 0].map (encodedFrame
          (Aead.tagged EncryptionKey gcmTagLen) ⟨[]⟩ (List.replicate 12 0) [7])).flatten).take 100])
        ⟨[]⟩ (finalChunkIndexForPlaintextSize [(7 : UInt8)].length) 0 none = .failed out e) := by
  have h1 : (windowsOf [(7 : UInt8)]).length = 1 := by
    rw [length_windowsOf, if_neg (by simp)]
    rfl
  have hjs : ∀ k ∈ [0, 0], k < (windowsOf [(7 : UInt8)]).length := by
    rw [h1]
    decide
  exact ⟨rfl, by rw [h1]; decide, hjs, List.flatten_singleton,
    chunkedDecryptStream_reassembled rfl (by rw [h1]; decide) [0, 0] hjs 100 List.flatten_singleton⟩

/-- The encoding of `[7]` with its final frame sent twice ends cleanly. -/
theorem chunkedDecryptStream_repeated_final :
    chunkedDecryptStream (Aead.tagged EncryptionKey gcmTagLen)
        (Pull.deliver [encodeChunked (Aead.tagged EncryptionKey gcmTagLen) ⟨[]⟩ (List.replicate 12 0) [7] ++
          encodedFrame (Aead.tagged EncryptionKey gcmTagLen) ⟨[]⟩ (List.replicate 12 0) [7] 0])
        ⟨[]⟩ (finalChunkIndexForPlaintextSize 1) 0 none = .ended [7] := by
  have hn : (windowsOf [(7 : UInt8)]).length ≤ u32Max := by
    rw [length_windowsOf, if_neg (by simp)]
    unfold chunkPlaintextSize u32Max
    norm_num
  exact chunkedDecryptStream_encodeChunked rfl hn List.flatten_singleton

end Reassembled

/-! ## Range reads -/

section Range

variable {E : Cipher} {key : EncryptionKey} {iv : List UInt8}

/-- The header fetch of a chunked object reads its base IV. -/
theorem fetchChunkedHeader_encodeChunked {o : InnerObject} {P : List UInt8}
    (hiv : iv.length = ivLen) (hbody : o.body = encodeChunked E key iv P) :
    fetchChunkedHeader o = .ok iv := by
  have hhead : (o.cut ((o.body.drop 0).take (chunkHeaderLen - 1 + 1 - 0))).flatten =
      chunkMagic ++ iv ++ [] := by
    rw [o.flatten_cut, hbody, List.drop_zero, List.append_nil, encodeChunked]
    exact List.take_left' (by rw [List.length_append, hiv]; rfl)
  obtain ⟨buf, ds', hfill, hmagic, hivb, -⟩ := fill_header _ hiv hhead
  unfold fetchChunkedHeader InnerObject.rangeRead
  dsimp only
  rw [if_neg (by decide), hfill]
  dsimp only
  rw [if_neg (by simp [hmagic]), hivb]

theorem length_flatten_framesFrom_le {f i : Nat} {ws : List (List UInt8)}
    (hws : ∀ w ∈ ws, w.length ≤ chunkPlaintextSize) :
    (framesFrom E key iv f i ws).flatten.length ≤ ws.length * chunkFrameWireLen := by
  induction ws generalizing i with
  | nil => simp
  | cons w ws ih =>
    have hw := hws w List.mem_cons_self
    have hrest := @ih (i + 1) (fun v hv => hws v (List.mem_cons_of_mem w hv))
    rw [framesFrom_cons, List.flatten_cons, List.length_append, length_frameOf, List.length_cons,
      Nat.succ_mul]
    unfold chunkFrameWireLen chunkFrameLenField gcmTagLen at *
    omega

/-- A window of frames `a ..= b` before the final one is in the full part. -/
theorem mem_dropLast_of_mem_drop_take {ws : List (List UInt8)} {v : List UInt8} {a k : Nat}
    (h : v ∈ (ws.drop a).take k) (hk : a + k < ws.length) : v ∈ ws.dropLast := by
  rw [List.take_drop] at h
  rw [List.dropLast_eq_take]
  have e : ws.take (a + k) = (ws.take (ws.length - 1)).take (a + k) := by
    rw [List.take_take, min_eq_left (by omega)]
  rw [e] at h
  exact List.mem_of_mem_take (List.mem_of_mem_drop h)

/-- The ranged body fetch of frames `a ..= b`: a bounded window when `b` is
not the final frame, and everything to the end of the object when it is;
either way exactly the frames of windows `a ..= b`. -/
theorem rangeBytes_encodeChunked {P : List UInt8} (hiv : iv.length = ivLen)
    (hn : (windowsOf P).length ≤ u32Max) {a b : Nat} (hab : a ≤ b)
    (hb : b < (windowsOf P).length) :
    ((encodeChunked E key iv P).drop (wireOffsetOfChunk a)).take
        ((if b < (windowsOf P).length - 1 then wireOffsetOfChunk b + chunkFrameWireLen - 1
          else u64Max - 1) + 1 - wireOffsetOfChunk a) =
      (framesFrom E key iv ((windowsOf P).length - 1) a
        (((windowsOf P).drop a).take (b - a + 1))).flatten := by
  have hlay : ChunkLayout E key iv P := chunkLayout hiv (by omega)
  have hvs : (((windowsOf P).drop a).take (b - a + 1)).length = b - a + 1 := by
    simp only [List.length_take, List.length_drop]
    omega
  rw [hlay.offsets a (by omega)]
  conv_lhs => rw [← List.take_append_drop (b - a + 1) ((windowsOf P).drop a)]
  rw [framesFrom_append, List.flatten_append]
  split
  · -- a bounded window: exactly the frames of `a ..= b`, all full
    next hbf =>
    have hfull : ∀ v ∈ ((windowsOf P).drop a).take (b - a + 1), v.length = chunkPlaintextSize :=
      fun v hv => length_of_mem_dropLast_windowsOf (mem_dropLast_of_mem_drop_take hv (by omega))
    apply List.take_left'
    rw [length_flatten_framesFrom hfull, hvs, Nat.add_mul, Nat.sub_mul, Nat.one_mul]
    have hF : 0 < chunkFrameWireLen := by decide
    have hmul : a * chunkFrameWireLen ≤ b * chunkFrameWireLen := Nat.mul_le_mul_right _ hab
    unfold wireOffsetOfChunk
    omega
  · -- the final frame: everything to the end of the object
    next hbf =>
    have hrest : ((windowsOf P).drop a).drop (b - a + 1) = [] := by
      rw [List.drop_drop]
      exact List.drop_of_length_le (by omega)
    have hle := @length_flatten_framesFrom_le E key iv ((windowsOf P).length - 1) a
      (((windowsOf P).drop a).take (b - a + 1))
      (fun v hv => length_le_of_mem_windowsOf (List.mem_of_mem_drop (List.mem_of_mem_take hv)))
    rw [hrest, framesFrom_nil, List.flatten_nil, List.append_nil]
    apply List.take_of_length_le
    rw [hvs] at hle
    unfold wireOffsetOfChunk chunkFrameWireLen chunkFrameLenField chunkHeaderLen gcmTagLen
      chunkPlaintextSize u64Max at *
    unfold u32Max at hn
    omega

/-- **The range decoder over frames `a ..= b`**: started at frame `a` with
the skip into window `a`, and with a range that ends in window `b` (or runs
past the end of `b` when it is the final window), it yields exactly the
range. -/
theorem drained_windows_range {P : List UInt8} (hn : (windowsOf P).length ≤ u32Max)
    {a b start len : Nat} {st : DecryptState} (hab : a ≤ b) (hb : b < (windowsOf P).length)
    (hat : AtFrames E key iv a (((windowsOf P).drop a).take (b - a + 1)) [] st)
    (hf : st.expectedFinalIndex = (windowsOf P).length - 1)
    (hs : st.skipBytes = start - a * chunkPlaintextSize) (ht : st.takeBytes = some len)
    (hlen : 0 < len) (ha : a * chunkPlaintextSize ≤ start)
    (hbl : b * chunkPlaintextSize < start + len)
    (hbh : start + len ≤ (b + 1) * chunkPlaintextSize)
    (hend : start + len ≤ P.length ∨ b + 1 = (windowsOf P).length) :
    drained E st = .ended ((P.drop start).take len) := by
  -- the windows `a ..= b`: those before `b`, then `b`
  have hsplit : ((windowsOf P).drop a).take (b - a + 1) =
      ((windowsOf P).drop a).take (b - a) ++ [(windowsOf P)[b]] := by
    rw [List.take_add_one, List.getElem?_drop, Nat.add_sub_cancel' hab, List.getElem?_eq_getElem hb]
    rfl
  have hw : ∀ v ∈ ((windowsOf P).drop a).take (b - a) ++ [(windowsOf P)[b]],
      v.length ≤ chunkPlaintextSize := by
    rw [← hsplit]
    intro v hv
    exact length_le_of_mem_windowsOf (List.mem_of_mem_drop (List.mem_of_mem_take hv))
  have hus := flatten_drop_take_windowsOf P a (b - a)
  have hvs := flatten_drop_take_windowsOf P a (b - a + 1)
  rw [hsplit] at hvs hat
  -- the bounds are linear in the window starts `a * size` and `b * size`, and
  -- omega is given the size as an opaque number: its value would have the
  -- kernel unfold the products
  have hmul : (b - a) * chunkPlaintextSize = b * chunkPlaintextSize - a * chunkPlaintextSize :=
    Nat.sub_mul b a chunkPlaintextSize
  have hmul' : (b - a + 1) * chunkPlaintextSize =
      b * chunkPlaintextSize - a * chunkPlaintextSize + chunkPlaintextSize := by
    rw [Nat.add_mul, hmul, Nat.one_mul]
  rw [Nat.add_mul, Nat.one_mul] at hbh
  have hlen_us : (((windowsOf P).drop a).take (b - a)).length = b - a := by
    simp only [List.length_take, List.length_drop]
    omega
  -- the range outlasts the windows before `b` ...
  have hlt : ((((windowsOf P).drop a).take (b - a)).flatten.drop st.skipBytes).length < len := by
    rw [hus, hs, List.length_drop, List.length_take, List.length_drop, hmul]
    generalize chunkPlaintextSize = size at *
    omega
  -- ... and runs out in `b`, or `b` is the final window
  have hend' : len ≤ ((((windowsOf P).drop a).take (b - a) ++ [(windowsOf P)[b]]).flatten.drop
      st.skipBytes).length ∨ a + (((windowsOf P).drop a).take (b - a)).length = st.expectedFinalIndex := by
    rcases hend with hP | hfinal
    · left
      rw [hvs, hs, List.length_drop, List.length_take, List.length_drop, hmul']
      generalize chunkPlaintextSize = size at *
      omega
    · right
      rw [hlen_us, hf]
      omega
  have hfin : a + (((windowsOf P).drop a).take (b - a)).length ≤ st.expectedFinalIndex := by
    rw [hf, hlen_us]
    omega
  have hj : a + (((windowsOf P).drop a).take (b - a)).length + 1 ≤ u32Max := by
    rw [hlen_us]
    omega
  rw [drained_frames_take hat hw hfin hj ht hlt hend',
    hvs, hs, List.drop_take, List.take_take, List.drop_drop, Nat.add_sub_cancel' ha,
    min_eq_left (by rw [hmul']; omega)]

/-- **Range reads of chunked objects**: for an object holding the encoding
of `P` (at most `u32::MAX` windows) and every range the guard accepts,
`get_passthrough_stream_range` returns a stream that yields exactly
`P[start ..= effective_end]`, and announces `effective_end - start + 1`
bytes. -/
theorem getPassthroughStreamRange_chunked {cfg : EncryptionConfig} {o : InnerObject}
    {P : List UInt8} (hiv : iv.length = ivLen) (hn : (windowsOf P).length ≤ u32Max)
    (hbody : o.body = encodeChunked E key iv P) (hmark : isChunkedEncrypted o.metadata = true)
    (hsize : o.metadata.fileSize = P.length)
    (hkey : pickDecryptKey cfg (stampedKeyId o.metadata) = .ok key) {start end_ : Nat}
    (hs : start ≤ min end_ (P.length - 1)) :
    getPassthroughStreamRange E cfg o start end_ =
      .ok (.ended ((P.drop start).take (min end_ (P.length - 1) - start + 1)),
        min end_ (P.length - 1) - start + 1) := by
  have hlay : ChunkLayout E key iv P := chunkLayout hiv (by omega)
  have hwin := length_windowsOf P
  -- the windows of the range's ends
  have hbn : min end_ (P.length - 1) / chunkPlaintextSize < (windowsOf P).length := by
    rw [hwin]
    split
    · next hP => simp [hP]
    · next hP =>
      have : P.length ≠ 0 := by rwa [Ne, List.length_eq_zero_iff]
      unfold chunkPlaintextSize
      omega
  have hab : start / chunkPlaintextSize ≤ min end_ (P.length - 1) / chunkPlaintextSize :=
    Nat.div_le_div_right hs
  have hfirst : (chunkIndexForPlaintextOffset start).1 = start / chunkPlaintextSize :=
    Nat.mod_eq_of_lt (by unfold u32Max at hn; omega)
  have hlast : (chunkIndexForPlaintextOffset (min end_ (P.length - 1))).1 =
      min end_ (P.length - 1) / chunkPlaintextSize :=
    Nat.mod_eq_of_lt (by unfold u32Max at hn; omega)
  unfold getPassthroughStreamRange
  rw [if_pos hmark, hkey]
  simp only [bind, Except.bind, hsize, if_neg (show ¬ min end_ (P.length - 1) < start by omega),
    fetchChunkedHeader_encodeChunked hiv hbody, pure, Except.pure, hfirst, hlast,
    ← hlay.finalIndex, InnerObject.rangeRead, hbody,
    rangeBytes_encodeChunked hiv hn hab hbn]
  congr 2
  -- the range decoder from frame `start / 64 KiB`
  refine drained_windows_range hn hab hbn
    ⟨rfl, rfl, rfl, rfl, rfl, ⟨_, rfl, by rw [List.nil_append, o.flatten_cut, List.append_nil]⟩⟩
    rfl rfl rfl (by omega) ?_ ?_ ?_ ?_
  · unfold chunkPlaintextSize
    omega
  · unfold chunkPlaintextSize
    omega
  · unfold chunkPlaintextSize
    omega
  · -- the range ends inside `P`, or `P` is empty and its one window is the final one
    by_cases hP : P = []
    · subst hP
      right
      simp [windowsOf]
    · left
      have : P.length ≠ 0 := by rwa [Ne, List.length_eq_zero_iff]
      omega

/-- **The empty object announces one byte**: every range of the empty
chunked object passes the guard (`min(end, 0 - 1) = 0 ≥ 0`), and the read
returns a stream that yields nothing together with the length 1. -/
theorem getPassthroughStreamRange_empty (E : Cipher) {cfg : EncryptionConfig} {key : EncryptionKey}
    {o : InnerObject} {iv : List UInt8} (hiv : iv.length = ivLen)
    (hbody : o.body = encodeChunked E key iv []) (hmark : isChunkedEncrypted o.metadata = true)
    (hsize : o.metadata.fileSize = 0)
    (hkey : pickDecryptKey cfg (stampedKeyId o.metadata) = .ok key) (end_ : Nat) :
    getPassthroughStreamRange E cfg o 0 end_ = .ok (.ended [], 1) := by
  have hn : (windowsOf ([] : List UInt8)).length ≤ u32Max := by
    rw [length_windowsOf, if_pos rfl]
    decide
  have h : getPassthroughStreamRange E cfg o 0 end_ = _ :=
    getPassthroughStreamRange_chunked hiv hn hbody hmark hsize hkey (Nat.zero_le _)
  simpa using h

theorem getPassthroughStreamRange_empty_zero_zero :
    (List.replicate 12 (0 : UInt8)).length = ivLen ∧
    (⟨markChunkedEncrypted (FileMetadata.newPassthrough "empty.bin" "" "" 0 none 0) none,
        encodeChunked (Aead.tagged EncryptionKey gcmTagLen) ⟨[]⟩ (List.replicate 12 0) [],
        fun b => [b], fun _ => List.flatten_singleton⟩ : InnerObject).metadata.fileSize = 0 ∧
    getPassthroughStreamRange (Aead.tagged EncryptionKey gcmTagLen)
      ⟨some ⟨[]⟩, none, .encrypt, none, none⟩
      ⟨markChunkedEncrypted (FileMetadata.newPassthrough "empty.bin" "" "" 0 none 0) none,
        encodeChunked (Aead.tagged EncryptionKey gcmTagLen) ⟨[]⟩ (List.replicate 12 0) [],
        fun b => [b], fun _ => List.flatten_singleton⟩ 0 0 = .ok (.ended [], 1) := by
  have hkey : pickDecryptKey ⟨some ⟨[]⟩, none, .encrypt, none, none⟩
      (stampedKeyId (markChunkedEncrypted (FileMetadata.newPassthrough "empty.bin" "" "" 0 none 0)
        none)) = .ok ⟨[]⟩ := by
    have hne : encryptionKeyIdKey ≠ encryptionMarkerKey := by decide
    simp only [stampedKeyId, markChunkedEncrypted, markWith, FileMetadata.newPassthrough]
    rw [UserMeta.get_insert_of_ne _ _ hne]
    rfl
  exact ⟨rfl, rfl, getPassthroughStreamRange_empty _ rfl rfl
    (isChunkedEncrypted_markChunkedEncrypted (FileMetadata.newPassthrough "empty.bin" "" "" 0 none 0)
      none) rfl hkey 0⟩

end Range

/-! ## The chunked writer and the decoder -/

/-- The largest object S3 stores, 5 TiB: no client hands the writers more. -/
def s3MaxObjectSize : Nat := 5 * 1024 ^ 4

/-- An object S3 can hold has at most `u32::MAX` windows. -/
theorem length_windowsOf_le_of_s3 {P : List UInt8} (h : P.length ≤ s3MaxObjectSize) :
    (windowsOf P).length ≤ u32Max := by
  rw [length_windowsOf]
  split
  · decide
  · unfold s3MaxObjectSize at h
    unfold chunkPlaintextSize u32Max
    omega

/-- **The writer outruns the decoder**: the chunked writer accepts a
plaintext of `2³²` windows (up to `2⁴⁸` bytes), stamping index `u32::MAX`
final, and `chunked_decrypt_stream` over what it wrote fails after the
next-to-last window instead of yielding the plaintext. -/
theorem putPassthroughChunked_roundtrip_overflow (E : Cipher) {cfg : EncryptionConfig}
    {key : EncryptionKey} (hkey : cfg.key = some key) {iv : List UInt8} (hiv : iv.length = ivLen)
    (chunks : List (List UInt8)) (md : FileMetadata)
    (hn : (windowsOf chunks.flatten).length = u32Max + 1) :
    ∃ body, putPassthroughChunked E cfg iv chunks md =
        .ok (.passthroughChunked body (markChunkedEncrypted md cfg.keyId)) ∧
      ∀ ds : List (List UInt8), ds.flatten = body.flatten →
        chunkedDecryptStream E (Pull.deliver ds) key
            (finalChunkIndexForPlaintextSize chunks.flatten.length) 0 none =
          .failed (chunks.flatten.take (u32Max * chunkPlaintextSize))
            (.encryption "chunk index overflow during decode") := by
  refine ⟨(chunkMagic ++ iv) :: framesFrom E key iv ((windowsOf chunks.flatten).length - 1) 0
      (windowsOf chunks.flatten), ?_, fun ds hds => ?_⟩
  · rw [putPassthroughChunked_eq hkey, if_pos (by omega)]
  · apply chunkedDecryptStream_final_overflow hiv hn
    rw [hds, List.flatten_cons, encodeChunked]

theorem putPassthroughChunked_roundtrip_overflow_at_two_pow_48 :
    (⟨some ⟨[]⟩, none, .encrypt, none, none⟩ : EncryptionConfig).key = some ⟨[]⟩ ∧
    (List.replicate 12 (0 : UInt8)).length = ivLen ∧
    (windowsOf [List.replicate (2 ^ 48) (0 : UInt8)].flatten).length = u32Max + 1 ∧
    ∃ body, putPassthroughChunked (Aead.tagged EncryptionKey gcmTagLen)
        ⟨some ⟨[]⟩, none, .encrypt, none, none⟩ (List.replicate 12 0)
        [List.replicate (2 ^ 48) 0] (FileMetadata.newPassthrough "big.bin" "" "" (2 ^ 48) none 0) =
        .ok (.passthroughChunked body
          (markChunkedEncrypted (FileMetadata.newPassthrough "big.bin" "" "" (2 ^ 48) none 0) none)) ∧
      ∀ ds : List (List UInt8), ds.flatten = body.flatten →
        chunkedDecryptStream (Aead.tagged EncryptionKey gcmTagLen) (Pull.deliver ds) ⟨[]⟩
            (finalChunkIndexForPlaintextSize [List.replicate (2 ^ 48) (0 : UInt8)].flatten.length)
            0 none =
          .failed ([List.replicate (2 ^ 48) (0 : UInt8)].flatten.take (u32Max * chunkPlaintextSize))
            (.encryption "chunk index overflow during decode") := by
  -- computed symbolically: the plaintext itself is never built
  have hne : ¬ [List.replicate (2 ^ 48) (0 : UInt8)].flatten = [] := by
    rw [List.flatten_singleton, List.replicate_eq_nil_iff]
    norm_num
  have hn : (windowsOf [List.replicate (2 ^ 48) (0 : UInt8)].flatten).length = u32Max + 1 := by
    rw [length_windowsOf, if_neg hne, List.flatten_singleton, List.length_replicate]
    unfold chunkPlaintextSize u32Max
    norm_num
  exact ⟨rfl, rfl, hn, putPassthroughChunked_roundtrip_overflow _ rfl rfl _ _ hn⟩

end DeltaGlider.Encrypting
