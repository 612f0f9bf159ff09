import Mathlib
import DeltaGlider.Storage.Encrypting

/-!
# The chunked writers produce the chunked encoding

`put_passthrough_chunked` re-slices incoming chunks into 64 KiB windows;
`put_passthrough_file` fills windows from short file reads.  Both push the
windows through `ChunkFramer`, which holds the latest window back and emits
the one before it as a non-final frame.  After windows `ws` the framer is
`framerAfter iv ws` and has emitted the frames of `ws.dropLast`
(`pushWindow_framerAfter`).

The re-slicing loop keeps the invariant `Sliced`: the input so far is its
full windows, all pushed, and the open window.  It yields a characterisation
of the chunked writer: it hands over the header and the frames of
`windowsOf P` when `P` has at most 2³² windows, and fails with "chunk index
overflow" otherwise.  The file writer, when it succeeds, writes
`encodeChunked P`, whatever the reads return.

    putPassthroughChunked_eq   the chunked writer, exactly
    putPassthroughFile_eq      a successful file write hands over `encodeChunked`
    chunkLayout                the frame layout of `encodeChunked`
    chunked_writers_frame_layout   both writers, and the layout
-/

namespace DeltaGlider.Encrypting

open RustStd Blocks

/-! ## The framer after a run of windows -/

/-- `ChunkFramer` after the windows `ws` were pushed: it holds the last one. -/
def framerAfter (baseIv : List UInt8) (ws : List (List UInt8)) : ChunkFramer :=
  { baseIv, index := ws.length - 1, pending := ws.getLast?, started := !ws.isEmpty }

theorem framerAfter_nil (baseIv : List UInt8) : framerAfter baseIv [] = ChunkFramer.new baseIv := rfl

section Framer

variable {E : Cipher} {key : EncryptionKey} {iv : List UInt8}

/-- `push_window` after `ws`: the held window leaves as a non-final frame
and the new one is held, unless the index would pass `u32::MAX`. -/
theorem pushWindow_framerAfter {ws : List (List UInt8)} (w : List UInt8)
    (hws : ∀ v ∈ ws, v.length ≤ chunkPlaintextSize) :
    (framerAfter iv ws).pushWindow E key w =
      if ws.length ≤ u32Max then
        .ok (ws.getLast?.map (frameOf E key iv (ws.length - 1) false), framerAfter iv (ws ++ [w]))
      else .error (.encryption "chunk index overflow (object too large)") := by
  rcases List.eq_nil_or_concat ws with rfl | ⟨vs, v, rfl⟩
  · -- nothing held yet: the window is only held
    rw [if_pos (by simp)]
    rfl
  · rw [List.concat_eq_append] at hws ⊢
    have hv : v.length ≤ chunkPlaintextSize := hws v (by simp)
    have hlen : (vs ++ [v]).length - 1 = vs.length := by simp
    simp only [ChunkFramer.pushWindow, framerAfter, List.getLast?_concat, hlen]
    rw [encryptChunk_eq_frameOf hv]
    by_cases hfit : vs.length + 1 ≤ u32Max
    · rw [checkedAdd_of_le hfit, if_pos (by simpa using hfit)]
      simp
    · rw [checkedAdd_of_lt (by omega), if_neg (by simpa using hfit)]
      rfl

/-- `finish` after `ws`: the held window, or an empty one, as the final frame. -/
theorem finish_framerAfter {ws : List (List UInt8)}
    (hws : ∀ v ∈ ws, v.length ≤ chunkPlaintextSize) :
    (framerAfter iv ws).finish E key =
      .ok (frameOf E key iv (ws.length - 1) true (ws.getLast?.getD [])) := by
  apply encryptChunk_eq_frameOf
  rcases List.eq_nil_or_concat ws with rfl | ⟨vs, v, rfl⟩
  · simp [framerAfter]
  · simpa [framerAfter] using hws v (by simp)

end Framer

/-! ## `put_passthrough_chunked` -/

/-- The re-slicing loop after input `Q`: its full windows `ws` went through
the framer, and the rest of `Q` is the open window. -/
def Sliced (E : Cipher) (key : EncryptionKey) (iv Q : List UInt8)
    (s : ChunkFramer × OpenWindow × List (List UInt8)) : Prop :=
  ∃ ws : List (List UInt8), Q = ws.flatten ++ s.2.1.1 ∧
    (∀ w ∈ ws, w.length = chunkPlaintextSize) ∧ ws.length ≤ u32Max + 1 ∧
    s.1 = framerAfter iv ws ∧
    s.2.2 = (chunkMagic ++ iv) :: framesFrom E key iv (ws.length - 1) 0 ws.dropLast

/-- No full window within the bound: at most `2³²` windows of input. -/
def WithinWindows (Q : List UInt8) : Prop := Q.length / chunkPlaintextSize ≤ u32Max + 1

/-- The error of a push past `u32::MAX`. -/
def indexOverflow : StorageError := .encryption "chunk index overflow (object too large)"

section Reslice

variable {E : Cipher} {key : EncryptionKey} {iv : List UInt8}

theorem length_flatten_full {ws : List (List UInt8)}
    (hws : ∀ w ∈ ws, w.length = chunkPlaintextSize) :
    ws.flatten.length = ws.length * chunkPlaintextSize := by
  induction ws with
  | nil => simp
  | cons w ws ih =>
    rw [List.flatten_cons, List.length_append, hws w List.mem_cons_self,
      ih (fun v hv => hws v (List.mem_cons_of_mem w hv)), List.length_cons]
    ring

/-- The number of full windows of the input so far. -/
theorem sliced_windows {Q : List UInt8} {s : ChunkFramer × OpenWindow × List (List UInt8)}
    {ws : List (List UInt8)} (hQ : Q = ws.flatten ++ s.2.1.1)
    (hws : ∀ w ∈ ws, w.length = chunkPlaintextSize) :
    Q.length / chunkPlaintextSize = ws.length := by
  have hlt := s.2.1.2
  rw [hQ, List.length_append, length_flatten_full hws]
  unfold chunkPlaintextSize at *
  omega

/-- **The re-slicing loop over one incoming chunk**: within the bound it
keeps `Sliced`, past it it fails with the index overflow. -/
theorem sliceIncoming_eq {Q : List UInt8} {fr : ChunkFramer} {pw : OpenWindow}
    {out : List (List UInt8)} {remaining : List UInt8} (hs : Sliced E key iv Q (fr, pw, out)) :
    (WithinWindows (Q ++ remaining) →
        ∃ s', sliceIncoming E key fr pw out remaining = .ok s' ∧ Sliced E key iv (Q ++ remaining) s') ∧
      (¬ WithinWindows (Q ++ remaining) →
        sliceIncoming E key fr pw out remaining = .error indexOverflow) := by
  obtain ⟨ws, hQ, hws, hn, hfr, hout⟩ := hs
  dsimp only at hQ hfr hout
  fun_induction sliceIncoming E key fr pw out remaining generalizing Q ws with
  | case1 fr pw out =>
    -- the chunk is used up: the state is already `Sliced`
    have hwithin : WithinWindows (Q ++ []) := by
      rw [List.append_nil, WithinWindows, @sliced_windows Q (fr, pw, out) ws hQ hws]
      exact hn
    exact ⟨fun _ => ⟨_, rfl, ws, by simpa using hQ, hws, hn, hfr, hout⟩, fun h => absurd hwithin h⟩
  | case2 fr pw out remaining hr space take window hfull e =>
    rename_i hpush
    -- the push fails only past `u32::MAX` windows
    subst hfr
    rw [pushWindow_framerAfter window (fun v hv => (hws v hv).le)] at hpush
    split at hpush
    · cases hpush
    · next hbig =>
      cases hpush
      have hlen : (ws.length + 1) * chunkPlaintextSize ≤ (Q ++ remaining).length := by
        have hpre := congrArg List.length (List.take_append_drop take remaining)
        have hw : window.length = pw.1.length + (remaining.take take).length := by
          simp [window]
        simp only [List.length_append] at hpre
        rw [hQ, List.length_append, List.length_append, length_flatten_full hws, Nat.succ_mul]
        omega
      have hout_of : ¬ WithinWindows (Q ++ remaining) := by
        have hdiv : (ws.length + 1) * chunkPlaintextSize / chunkPlaintextSize ≤
            (Q ++ remaining).length / chunkPlaintextSize := Nat.div_le_div_right hlen
        rw [Nat.mul_div_cancel _ (by unfold chunkPlaintextSize; omega)] at hdiv
        unfold WithinWindows
        omega
      exact ⟨fun h => absurd h hout_of, fun _ => rfl⟩
  | case3 fr pw out remaining hr space take window hfull frame framer' hpush =>
    rename_i ih
    subst hfr
    rw [pushWindow_framerAfter window (fun v hv => (hws v hv).le)] at hpush
    split at hpush
    · next hfit =>
      obtain ⟨rfl, rfl⟩ := Prod.mk.inj (Except.ok.inj hpush)
      have e : Q ++ remaining.take take ++ remaining.drop take = Q ++ remaining := by
        rw [List.append_assoc, List.take_append_drop]
      rw [← e]
      -- the full window joins the windows
      apply ih (ws ++ [window])
      · simp [hQ, window]
      · intro w hw
        rw [List.mem_append, List.mem_singleton] at hw
        rcases hw with hw | rfl
        · exact hws w hw
        · exact hfull
      · simp only [List.length_append, List.length_singleton]
        omega
      · rfl
      · rw [hout, List.cons_append, framesFrom_dropLast_append_nonFinal ws window]
    · cases hpush
  | case4 fr pw out remaining hr space take window hfull =>
    rename_i ih
    have e : Q ++ remaining.take take ++ remaining.drop take = Q ++ remaining := by
      rw [List.append_assoc, List.take_append_drop]
    rw [← e]
    -- the window grows
    exact ih ws (by simp [hQ, window]) hws hn hfr hout

theorem withinWindows_of_sliced {Q : List UInt8} {s : ChunkFramer × OpenWindow × List (List UInt8)}
    (hs : Sliced E key iv Q s) : WithinWindows Q := by
  obtain ⟨ws, hQ, hws, hn, -, -⟩ := hs
  rw [WithinWindows, sliced_windows hQ hws]
  exact hn

theorem WithinWindows.of_append {Q r : List UInt8} (h : WithinWindows (Q ++ r)) : WithinWindows Q := by
  unfold WithinWindows at *
  have : Q.length / chunkPlaintextSize ≤ (Q ++ r).length / chunkPlaintextSize :=
    Nat.div_le_div_right (by simp)
  omega

/-- **The `for incoming in chunks` loop**: within the bound it ends `Sliced`
after all the input, past it it fails with the index overflow. -/
theorem foldSlices_eq (chunks : List (List UInt8)) :
    ∀ {Q : List UInt8} {s : ChunkFramer × OpenWindow × List (List UInt8)}, Sliced E key iv Q s →
      (WithinWindows (Q ++ chunks.flatten) →
        ∃ s', chunks.foldlM (fun (acc : ChunkFramer × OpenWindow × List (List UInt8)) incoming =>
            sliceIncoming E key acc.1 acc.2.1 acc.2.2 incoming) s = .ok s' ∧
          Sliced E key iv (Q ++ chunks.flatten) s') ∧
      (¬ WithinWindows (Q ++ chunks.flatten) →
        chunks.foldlM (fun (acc : ChunkFramer × OpenWindow × List (List UInt8)) incoming =>
            sliceIncoming E key acc.1 acc.2.1 acc.2.2 incoming) s = .error indexOverflow) := by
  induction chunks with
  | nil =>
    intro Q s hs
    rw [List.flatten_nil, List.append_nil]
    exact ⟨fun _ => ⟨s, rfl, hs⟩, fun h => absurd (withinWindows_of_sliced hs) h⟩
  | cons c cs ih =>
    intro Q s hs
    obtain ⟨fr, pw, out⟩ := s
    have hc := @sliceIncoming_eq E key iv Q fr pw out c hs
    rw [List.flatten_cons, ← List.append_assoc, List.foldlM_cons]
    by_cases hwc : WithinWindows (Q ++ c)
    · -- this chunk fits: go on from the state after it
      obtain ⟨s1, h1, hs1⟩ := hc.1 hwc
      rw [h1]
      exact ih hs1
    · -- this chunk already overflows, and so does the whole input
      rw [hc.2 hwc]
      exact ⟨fun h => absurd h.of_append hwc, fun _ => rfl⟩

/-- The windows of an input made of full windows and a short tail. -/
theorem windowsOf_full_append {ws : List (List UInt8)} {t : List UInt8}
    (hws : ∀ w ∈ ws, w.length = chunkPlaintextSize) (ht : t.length < chunkPlaintextSize) :
    windowsOf (ws.flatten ++ t) =
      if ws = [] ∧ t = [] then [[]] else ws ++ (if t = [] then [] else [t]) := by
  have hS : 0 < chunkPlaintextSize := by decide
  by_cases h : ws = [] ∧ t = []
  · obtain ⟨rfl, rfl⟩ := h
    rfl
  · have hne : ws.flatten ++ t ≠ [] := by
      intro hnil
      apply h
      rw [List.append_eq_nil_iff, List.flatten_eq_nil_iff] at hnil
      refine ⟨?_, hnil.2⟩
      rcases ws with _ | ⟨w, ws⟩
      · rfl
      · have := hws w List.mem_cons_self
        rw [hnil.1 w List.mem_cons_self] at this
        exact absurd this (by decide)
    rw [windowsOf, if_neg hne, if_neg h, blocks_append_full hS ws t hws ht]

/-- **The chunked writer**: with a key it hands over the header and the
frames of `windowsOf P`, marked chunked-encrypted, when `P` has at most
`2³²` windows, and fails with the index overflow otherwise. -/
theorem putPassthroughChunked_eq {cfg : EncryptionConfig} {key : EncryptionKey}
    (hkey : cfg.key = some key) (iv : List UInt8) (chunks : List (List UInt8)) (md : FileMetadata) :
    putPassthroughChunked E cfg iv chunks md =
      if (windowsOf chunks.flatten).length ≤ u32Max + 1 then
        .ok (.passthroughChunked ((chunkMagic ++ iv) ::
          framesFrom E key iv ((windowsOf chunks.flatten).length - 1) 0 (windowsOf chunks.flatten))
          (markChunkedEncrypted md cfg.keyId))
      else .error indexOverflow := by
  have h0 : Sliced E key iv [] (ChunkFramer.new iv, ⟨[], by decide⟩, [chunkMagic ++ iv]) :=
    ⟨[], rfl, by simp, by simp, rfl, rfl⟩
  have hfold := foldSlices_eq chunks h0
  rw [List.nil_append] at hfold
  unfold putPassthroughChunked
  rw [hkey]
  dsimp only
  by_cases hP : WithinWindows chunks.flatten
  · obtain ⟨⟨fr, pw, out⟩, hf, ws, hQ, hws, hn, hfr, hout⟩ := hfold.1 hP
    dsimp only at hQ hfr hout
    subst hfr hout
    have hlen : ∀ v ∈ ws, v.length ≤ chunkPlaintextSize := fun v hv => (hws v hv).le
    have hW := windowsOf_full_append hws pw.2
    rw [← hQ] at hW
    rw [hf]
    simp only [bind, Except.bind, pure, Except.pure]
    by_cases hpw : pw.1 = []
    · -- no tail: the last full window, or an empty window, is final
      rw [if_neg (by simpa using hpw), finish_framerAfter hlen]
      dsimp only
      by_cases hws0 : ws = []
      · subst hws0
        have hW' : windowsOf chunks.flatten = [[]] := by
          rw [hW, if_pos ⟨rfl, hpw⟩]
        rw [hW', if_pos (by simp [u32Max])]
        rfl
      · have hW' : windowsOf chunks.flatten = ws := by
          rw [hW, if_neg (fun h => hws0 h.1), if_pos hpw, List.append_nil]
        rw [hW', if_pos hn, List.cons_append, framesFrom_dropLast_append_final hws0]
    · -- the tail is the last window
      have hW' : windowsOf chunks.flatten = ws ++ [pw.1] := by
        rw [hW, if_neg (fun h => hpw h.2), if_neg hpw]
      have hws' : ∀ v ∈ ws ++ [pw.1], v.length ≤ chunkPlaintextSize := by
        intro v hv
        rw [List.mem_append, List.mem_singleton] at hv
        rcases hv with hv | rfl
        · exact hlen v hv
        · exact pw.2.le
      rw [if_pos hpw, pushWindow_framerAfter pw.1 hlen, hW', List.length_append,
        List.length_singleton]
      by_cases hfit : ws.length ≤ u32Max
      · rw [if_pos hfit, if_pos (by omega)]
        dsimp only
        rw [finish_framerAfter hws']
        dsimp only
        rw [List.cons_append, framesFrom_dropLast_append_nonFinal ws pw.1, List.cons_append,
          framesFrom_dropLast_append_final (by simp)]
        simp
      · rw [if_neg hfit, if_neg (by omega)]
        rfl
  · -- the input overflows while it is sliced
    rw [hfold.2 hP]
    have hS : 0 < chunkPlaintextSize := by decide
    have hne : chunks.flatten ≠ [] := by
      rintro h
      rw [WithinWindows, h] at hP
      exact hP (by simp)
    have hmany : u32Max + 1 < (windowsOf chunks.flatten).length := by
      rw [windowsOf, if_neg hne, length_blocks hS]
      unfold WithinWindows at hP
      have : chunks.flatten.length / chunkPlaintextSize ≤
          (chunks.flatten.length + chunkPlaintextSize - 1) / chunkPlaintextSize :=
        Nat.div_le_div_right (by omega)
      omega
    rw [if_neg (by omega)]
    rfl

end Reslice

/-! ## `put_passthrough_file` -/

section File

variable {E : Cipher} {key : EncryptionKey} {iv : List UInt8}

/-- **The file loop**: from the framer after full windows `ws`, a run that
succeeds has pushed the blocks of the rest of the file, however the reads
were cut. -/
theorem encryptFileWindows_eq {plan : ReadPlan} {k : Nat} {fr fr' : ChunkFramer}
    {frames frames' : List (List UInt8)} {rest : List UInt8} :
    encryptFileWindows E key plan k fr frames rest = .ok (fr', frames') →
      ∀ ws : List (List UInt8), (∀ w ∈ ws, w.length = chunkPlaintextSize) →
        ws.length ≤ u32Max + 1 → fr = framerAfter iv ws →
        frames = framesFrom E key iv (ws.length - 1) 0 ws.dropLast →
        fr' = framerAfter iv (ws ++ blocks chunkPlaintextSize rest) ∧
          frames' = framesFrom E key iv ((ws ++ blocks chunkPlaintextSize rest).length - 1) 0
            (ws ++ blocks chunkPlaintextSize rest).dropLast ∧
          (ws ++ blocks chunkPlaintextSize rest).length ≤ u32Max + 1 := by
  have hS : 0 < chunkPlaintextSize := by decide
  fun_induction encryptFileWindows E key plan k fr frames rest with
  | case1 => intro h; cases h
  | case2 k fr frames rest window rest' k' hfill hw =>
    -- an empty window: the file is read to its end
    intro h ws _ hn hfr hframes
    cases h
    obtain ⟨hwin, -⟩ := fillWindow_eq hfill (Nat.zero_le _)
    have hrest : rest = [] := by
      rw [List.nil_append] at hwin
      rw [hwin, List.length_eq_zero_iff, List.take_eq_nil_iff] at hw
      rcases hw with h0 | h0
      · exact absurd h0 (by decide)
      · exact h0
    subst hrest
    simp only [blocks_nil, List.append_nil]
    exact ⟨hfr, hframes, hn⟩
  | case3 => intro h; cases h
  | case4 k fr frames rest window rest' k' hfill hw frame framer' hpush fs hshort =>
    -- a short window: the last one, and the end of the file
    intro h ws hws hn hfr hframes
    injection h with h
    injection h with h1 h2
    subst h1
    rw [← h2]
    obtain ⟨hwin, -⟩ := fillWindow_eq hfill (Nat.zero_le _)
    simp only [List.nil_append, List.length_nil, Nat.sub_zero] at hwin
    have hlt : rest.length < chunkPlaintextSize := by
      rw [hwin, List.length_take] at hshort
      omega
    have hrest : blocks chunkPlaintextSize rest = [window] := by
      rw [hwin, List.take_of_length_le hlt.le]
      exact blocks_of_length_le hS (by rintro rfl; simp [hwin] at hw) hlt.le
    subst hfr hframes
    rw [pushWindow_framerAfter window (fun v hv => (hws v hv).le)] at hpush
    split at hpush
    · next hfit =>
      obtain ⟨rfl, rfl⟩ := Prod.mk.inj (Except.ok.inj hpush)
      rw [hrest]
      refine ⟨rfl, framesFrom_dropLast_append_nonFinal ws window, ?_⟩
      simp only [List.length_append, List.length_singleton]
      omega
    · cases hpush
  | case5 k fr frames rest window rest' k' hfill hw frame framer' hpush fs hfull =>
    rename_i ih
    -- a full window: pushed, and the loop goes on
    intro h ws hws hn hfr hframes
    obtain ⟨hwin, hrest'⟩ := fillWindow_eq hfill (Nat.zero_le _)
    simp only [List.nil_append, List.length_nil, Nat.sub_zero] at hwin hrest'
    have hne : rest ≠ [] := by
      rintro rfl
      simp [hwin] at hw
    have hwl : window.length = chunkPlaintextSize := by
      rw [hwin, List.length_take] at hfull ⊢
      omega
    subst hfr hframes
    rw [pushWindow_framerAfter window (fun v hv => (hws v hv).le)] at hpush
    split at hpush
    · next hfit =>
      obtain ⟨rfl, rfl⟩ := Prod.mk.inj (Except.ok.inj hpush)
      have hblocks : ws ++ blocks chunkPlaintextSize rest =
          ws ++ [window] ++ blocks chunkPlaintextSize rest' := by
        rw [blocks_eq_cons hS hne, ← hwin, ← hrest', List.append_assoc, List.singleton_append]
      rw [hblocks]
      apply ih h (ws ++ [window])
      · intro w hw'
        rw [List.mem_append, List.mem_singleton] at hw'
        rcases hw' with hw' | rfl
        · exact hws w hw'
        · exact hwl
      · simp only [List.length_append, List.length_singleton]
        omega
      · rfl
      · exact framesFrom_dropLast_append_nonFinal ws window
    · cases hpush

/-- A successful encryption of the source file writes its chunked encoding. -/
theorem encryptFileChunked_eq {source out : List UInt8} {plan : ReadPlan}
    (h : encryptFileChunked E key iv source plan = .ok out) :
    out = encodeChunked E key iv source ∧ (windowsOf source).length ≤ u32Max + 1 := by
  unfold encryptFileChunked at h
  cases hrun : encryptFileWindows E key plan 0 (ChunkFramer.new iv) [] source with
  | error e =>
    rw [hrun] at h
    cases h
  | ok r =>
    obtain ⟨fr', frames'⟩ := r
    obtain ⟨rfl, rfl, hn⟩ := encryptFileWindows_eq hrun [] (by simp) (by simp) rfl rfl
    rw [List.nil_append] at hn
    have hlen : ∀ v ∈ blocks chunkPlaintextSize source, v.length ≤ chunkPlaintextSize :=
      fun v hv => length_le_of_mem_blocks hv
    rw [hrun] at h
    simp only [bind, Except.bind, pure, Except.pure, List.nil_append] at h
    rw [finish_framerAfter hlen] at h
    cases h
    by_cases hsrc : source = []
    · subst hsrc
      exact ⟨by simp [encodeChunked, windowsOf], by simp [windowsOf, u32Max]⟩
    · have hW : windowsOf source = blocks chunkPlaintextSize source := if_neg hsrc
      have hne : blocks chunkPlaintextSize source ≠ [] := by
        rw [blocks_eq_cons (by decide) hsrc]
        exact List.cons_ne_nil _ _
      refine ⟨?_, hW ▸ hn⟩
      rw [encodeChunked, hW, ← framesFrom_dropLast_append_final hne, List.flatten_append,
        List.flatten_singleton, List.append_assoc]

/-- **The file writer**: with a key in `Encrypt` mode, a successful write
hands over the chunked encoding of the file, marked chunked-encrypted. -/
theorem putPassthroughFile_eq {cfg : EncryptionConfig} {key : EncryptionKey}
    (hmode : cfg.writeMode = .encrypt) (hkey : cfg.key = some key) {iv source : List UInt8}
    {plan : ReadPlan} {md : FileMetadata} {put : InnerPut}
    (h : putPassthroughFile E cfg iv source plan md = .ok put) :
    put = .passthroughFile (encodeChunked E key iv source) (markChunkedEncrypted md cfg.keyId) ∧
      (windowsOf source).length ≤ u32Max + 1 := by
  unfold putPassthroughFile at h
  rw [if_neg (by simp [hmode]), hkey] at h
  simp only [bind, Except.bind, pure, Except.pure] at h
  split at h
  · cases h
  · next tmp htmp =>
    cases h
    obtain ⟨rfl, hn⟩ := encryptFileChunked_eq htmp
    exact ⟨rfl, hn⟩

end File

/-! ## The frame layout -/

/-- The layout of the chunked encoding of `P`: `n - 1` is the final index
the readers derive from `|P|`, every window but the last is full, the last
is empty only for the empty object, frame `i` starts at
`wire_offset_of_chunk(i)`, and the windows are `P`. -/
structure ChunkLayout (E : Cipher) (key : EncryptionKey) (iv P : List UInt8) : Prop where
  finalIndex : (windowsOf P).length - 1 = finalChunkIndexForPlaintextSize P.length
  full : ∀ w ∈ (windowsOf P).dropLast, w.length = chunkPlaintextSize
  last : ∃ w, (windowsOf P).getLast? = some w ∧ w.length ≤ chunkPlaintextSize ∧ (w = [] ↔ P = [])
  offsets : ∀ i < (windowsOf P).length,
    (encodeChunked E key iv P).drop (wireOffsetOfChunk i) =
      (framesFrom E key iv ((windowsOf P).length - 1) i ((windowsOf P).drop i)).flatten
  flatten : (windowsOf P).flatten = P

section Layout

variable {E : Cipher} {key : EncryptionKey} {iv : List UInt8}

theorem length_windowsOf (P : List UInt8) :
    (windowsOf P).length = if P = [] then 1 else (P.length + chunkPlaintextSize - 1) / chunkPlaintextSize := by
  unfold windowsOf
  split
  · rfl
  · exact length_blocks (by decide) P

theorem flatten_windowsOf (P : List UInt8) : (windowsOf P).flatten = P := by
  unfold windowsOf
  split
  · next h => simp [h]
  · exact flatten_blocks (by decide) P

theorem length_of_mem_dropLast_windowsOf {P w : List UInt8} (h : w ∈ (windowsOf P).dropLast) :
    w.length = chunkPlaintextSize := by
  unfold windowsOf at h
  split at h
  · simp at h
  · exact length_of_mem_dropLast_blocks h

/-- Full windows make frames of `CHUNK_FRAME_WIRE_LEN` bytes. -/
theorem length_flatten_framesFrom {f i : Nat} {ws : List (List UInt8)}
    (hws : ∀ w ∈ ws, w.length = chunkPlaintextSize) :
    (framesFrom E key iv f i ws).flatten.length = ws.length * chunkFrameWireLen := by
  induction ws generalizing i with
  | nil => simp
  | cons w ws ih =>
    rw [framesFrom_cons, List.flatten_cons, List.length_append, length_frameOf,
      hws w List.mem_cons_self, ih (fun v hv => hws v (List.mem_cons_of_mem w hv)), List.length_cons]
    unfold chunkFrameWireLen chunkFrameLenField gcmTagLen
    ring

/-- A frame is longer than its window. -/
theorem length_flatten_lt_framesFrom {f i : Nat} {ws : List (List UInt8)} :
    ws.flatten.length + ws.length ≤ (framesFrom E key iv f i ws).flatten.length := by
  induction ws generalizing i with
  | nil => simp
  | cons w ws ih =>
    have := @ih (i + 1)
    rw [framesFrom_cons, List.flatten_cons, List.flatten_cons, List.length_append,
      List.length_append, length_frameOf, List.length_cons]
    omega

theorem chunkLayout {P : List UInt8} (hiv : iv.length = ivLen)
    (hn : (windowsOf P).length ≤ u32Max + 1) : ChunkLayout E key iv P := by
  have hS : 0 < chunkPlaintextSize := by decide
  refine ⟨?_, fun w hw => length_of_mem_dropLast_windowsOf hw, ?_, ?_, flatten_windowsOf P⟩
  · -- the final index, read back from the size
    rw [length_windowsOf] at hn ⊢
    unfold finalChunkIndexForPlaintextSize
    by_cases hP : P = []
    · simp [hP]
    · have hlen : P.length ≠ 0 := by simpa using hP
      rw [if_neg hP] at hn ⊢
      rw [if_neg hlen, Nat.mod_eq_of_lt]
      · unfold chunkPlaintextSize at *
        omega
      · unfold u32Max chunkPlaintextSize at *
        omega
  · -- the last window
    unfold windowsOf
    by_cases hP : P = []
    · subst hP
      exact ⟨[], rfl, by simp, by simp⟩
    · rw [if_neg hP]
      have hne : blocks chunkPlaintextSize P ≠ [] := by
        rw [blocks_eq_cons hS hP]
        exact List.cons_ne_nil _ _
      obtain ⟨w, hw⟩ := List.getLast?_isSome.mpr hne |> Option.isSome_iff_exists.mp
      have hmem : w ∈ blocks chunkPlaintextSize P := List.mem_of_getLast? hw
      exact ⟨w, hw, length_le_of_mem_blocks hmem,
        ⟨fun h => absurd h (ne_nil_of_mem_blocks hmem), fun h => absurd h hP⟩⟩
  · -- frame `i` starts after the header and `i` full frames
    intro i hi
    have hfull : ∀ w ∈ (windowsOf P).take i, w.length = chunkPlaintextSize := by
      intro w hw
      apply length_of_mem_dropLast_windowsOf
      rw [List.dropLast_eq_take]
      have e : (windowsOf P).take i = ((windowsOf P).take ((windowsOf P).length - 1)).take i := by
        rw [List.take_take, min_eq_left (by omega)]
      rw [e] at hw
      exact List.mem_of_mem_take hw
    have hlen : (framesFrom E key iv ((windowsOf P).length - 1) 0 ((windowsOf P).take i)).flatten.length =
        i * chunkFrameWireLen := by
      rw [length_flatten_framesFrom hfull, List.length_take, min_eq_left hi.le]
    have hsplit : encodeChunked E key iv P =
        (chunkMagic ++ iv ++ (framesFrom E key iv ((windowsOf P).length - 1) 0 ((windowsOf P).take i)).flatten) ++
          (framesFrom E key iv ((windowsOf P).length - 1) i ((windowsOf P).drop i)).flatten := by
      conv_lhs => rw [encodeChunked, ← List.take_append_drop i (windowsOf P)]
      rw [framesFrom_append, List.flatten_append, List.length_take, min_eq_left hi.le, Nat.zero_add,
        List.take_append_drop]
      simp only [List.append_assoc]
    rw [hsplit, List.drop_left']
    rw [List.length_append, List.length_append, hlen, hiv]
    rfl

end Layout

/-! ## Both writers -/

/-- The chunked writer gates on the key alone: with a key it hands over
frames longer than the plaintext and marks the object chunked-encrypted,
whatever the write mode says. -/
theorem putPassthroughChunked_ignores_writeMode (E : Cipher) {cfg : EncryptionConfig}
    {key : EncryptionKey} (hkey : cfg.key = some key) (iv : List UInt8)
    (chunks : List (List UInt8)) (md : FileMetadata) {put : InnerPut}
    (h : putPassthroughChunked E cfg iv chunks md = .ok put) :
    ∃ body md', put = .passthroughChunked body md' ∧
      chunks.flatten.length < body.flatten.length ∧ isChunkedEncrypted md' = true := by
  rw [putPassthroughChunked_eq hkey] at h
  split at h
  · cases h
    refine ⟨_, _, rfl, ?_, isChunkedEncrypted_markChunkedEncrypted md cfg.keyId⟩
    -- the windows are the plaintext, and there is at least one
    have hlen : 0 < (windowsOf chunks.flatten).length := by
      rw [length_windowsOf]
      split
      · decide
      · next hP =>
        have : chunks.flatten.length ≠ 0 := by rwa [Ne, List.length_eq_zero_iff]
        unfold chunkPlaintextSize at *
        omega
    have hframes := @length_flatten_lt_framesFrom E key iv ((windowsOf chunks.flatten).length - 1) 0
      (windowsOf chunks.flatten)
    rw [flatten_windowsOf] at hframes
    rw [List.flatten_cons, List.length_append]
    omega
  · cases h

theorem putPassthroughChunked_ignores_writeMode_shim :
    (⟨some ⟨[]⟩, none, .passThrough, none, none⟩ : EncryptionConfig).writeMode = .passThrough ∧
    (⟨some ⟨[]⟩, none, .passThrough, none, none⟩ : EncryptionConfig).key = some ⟨[]⟩ ∧
    ∃ put, putPassthroughChunked (Aead.tagged EncryptionKey gcmTagLen)
        ⟨some ⟨[]⟩, none, .passThrough, none, none⟩ (List.replicate 12 0) [[7]]
        (FileMetadata.newPassthrough "a.bin" "" "" 1 none 0) = .ok put ∧
      ∃ body md', put = .passthroughChunked body md' ∧
        [[(7 : UInt8)]].flatten.length < body.flatten.length ∧ isChunkedEncrypted md' = true := by
  have hput := @putPassthroughChunked_eq (Aead.tagged EncryptionKey gcmTagLen)
    ⟨some ⟨[]⟩, none, .passThrough, none, none⟩ ⟨[]⟩ rfl (List.replicate 12 0) [[7]]
    (FileMetadata.newPassthrough "a.bin" "" "" 1 none 0)
  have hn : (windowsOf [[(7 : UInt8)]].flatten).length ≤ u32Max + 1 := by
    rw [length_windowsOf]
    decide
  rw [if_pos hn] at hput
  exact ⟨rfl, rfl, _, hput, putPassthroughChunked_ignores_writeMode _ rfl _ _ _ hput⟩

end DeltaGlider.Encrypting
