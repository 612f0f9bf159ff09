import Mathlib
import DeltaGlider.Lib.RustStd
import DeltaGlider.Lib.Blocks
import DeltaGlider.Lib.Aead
import DeltaGlider.Types

/-!
# The encryption-at-rest wire formats: primitives

Model of the format half of `src/storage/encrypting.rs`: the constants, the
metadata markers, single-shot `encrypt`/`decrypt` (`[iv][ct+tag]`), and the
chunked format's per-chunk nonce and AAD, `encrypt_chunk`/`decrypt_chunk`
and the look-ahead `ChunkFramer`, and the O(1) offset helpers.

AES-256-GCM is an `Aead.IdealAead` with 16-byte tags (`Cipher`).  The
random IVs the source draws from `OsRng` are arguments.  `cipher.encrypt`
fails only past 2³⁶ bytes, which the 64 KiB window check excludes, so
encryption is total here.

    chunkAad i f = chunkAad j g → i = j ∧ f = g                  (chunkAad_inj, i j ≤ u32Max)
-/

namespace DeltaGlider.Encrypting

open RustStd

/-! ## Constants and keys -/

/-- `CHUNK_MAGIC = *b"DGE1"`. -/
def chunkMagic : List UInt8 := [68, 71, 69, 49]

def ivLen : Nat := 12

def gcmTagLen : Nat := 16

/-- `CHUNK_PLAINTEXT_SIZE = 64 * 1024`. -/
def chunkPlaintextSize : Nat := 64 * 1024

def chunkFrameLenField : Nat := 4

/-- `CHUNK_HEADER_LEN = 4 (magic) + 12 (base_iv)`. -/
def chunkHeaderLen : Nat := 4 + 12

/-- `CHUNK_FRAME_WIRE_LEN`: wire size of every non-final chunk. -/
def chunkFrameWireLen : Nat := chunkFrameLenField + chunkPlaintextSize + gcmTagLen

/-- `CHUNK_MAX_WIRE_CIPHERTEXT`: ceiling on a declared frame length. -/
def chunkMaxWireCiphertext : Nat := chunkPlaintextSize + gcmTagLen + 1024

/-- `EncryptionKey([u8; 32])`. -/
structure EncryptionKey where
  bytes : List UInt8
  deriving DecidableEq

/-- AES-256-GCM as an ideal AEAD. -/
abbrev Cipher := Aead.IdealAead EncryptionKey gcmTagLen

/-! ## Metadata markers -/

def encryptionMarkerKey : String := "dg-encrypted"

def encryptionMarkerValue : String := "aes-256-gcm-v1"

def chunkMarkerValue : String := "aes-256-gcm-chunked-v1"

def encryptionKeyIdKey : String := "dg-encryption-key-id"

/-- `is_encrypted`: either marker value. -/
def isEncrypted (m : FileMetadata) : Bool :=
  match m.userMetadata.get encryptionMarkerKey with
  | some v => v == encryptionMarkerValue || v == chunkMarkerValue
  | none => false

/-- `is_chunked_encrypted`. -/
def isChunkedEncrypted (m : FileMetadata) : Bool :=
  match m.userMetadata.get encryptionMarkerKey with
  | some v => v == chunkMarkerValue
  | none => false

/-- Stamp `marker` and, when there is one, the key id. -/
def markWith (marker : String) (m : FileMetadata) (keyId : Option String) : FileMetadata :=
  let um := m.userMetadata.insert encryptionMarkerKey marker
  { m with userMetadata := match keyId with
    | some kid => um.insert encryptionKeyIdKey kid
    | none => um }

/-- `mark_encrypted`. -/
def markEncrypted (m : FileMetadata) (keyId : Option String) : FileMetadata :=
  markWith encryptionMarkerValue m keyId

/-- `mark_chunked_encrypted`. -/
def markChunkedEncrypted (m : FileMetadata) (keyId : Option String) : FileMetadata :=
  markWith chunkMarkerValue m keyId

@[simp] theorem isChunkedEncrypted_markChunkedEncrypted (m : FileMetadata) (keyId : Option String) :
    isChunkedEncrypted (markChunkedEncrypted m keyId) = true := by
  have hne : encryptionMarkerKey ≠ encryptionKeyIdKey := by decide
  cases keyId <;> simp [isChunkedEncrypted, markChunkedEncrypted, markWith, hne]

/-- `stamped_key_id`. -/
def stampedKeyId (m : FileMetadata) : Option String := m.userMetadata.get encryptionKeyIdKey

/-! ## Single-shot format `[iv][ciphertext + tag]` -/

/-- `encrypt(key, plaintext)` with the random `iv` drawn by the caller. -/
def encrypt (E : Cipher) (key : EncryptionKey) (iv plaintext : List UInt8) : List UInt8 :=
  iv ++ E.encrypt key iv [] plaintext

/-- `decrypt(key, blob)`. -/
def decrypt (E : Cipher) (key : EncryptionKey) (blob : List UInt8) :
    Except StorageError (List UInt8) :=
  if blob.length < ivLen + 16 then
    .error (.encryption ("blob too short: " ++ toString blob.length ++ " bytes"))
  else
    match E.decrypt key (blob.take ivLen) [] (blob.drop ivLen) with
    | some pt => .ok pt
    | none => .error (.encryption "decryption failed (wrong key or tampered data)")

/-! ## Chunked format primitives -/

/-- `chunk_nonce`: `base_iv` with its last four bytes XORed with the
big-endian chunk index. -/
def chunkNonce (baseIv : List UInt8) (chunkIndex : Nat) : List UInt8 :=
  baseIv.take 8 ++ List.zipWith (· ^^^ ·) ((baseIv.drop 8).take 4) (u32Be chunkIndex)

/-- `chunk_aad`: `"DGE1" ‖ index (u32 LE) ‖ final flag ‖ seven zero bytes`. -/
def chunkAad (chunkIndex : Nat) (isFinal : Bool) : List UInt8 :=
  chunkMagic ++ u32Le chunkIndex ++ [if isFinal then 1 else 0] ++ List.replicate 7 0

@[simp] theorem length_chunkAad (i : Nat) (f : Bool) : (chunkAad i f).length = gcmTagLen := by
  simp [chunkAad, chunkMagic, gcmTagLen]

/-- Distinct (index, final flag) pairs have distinct AADs. -/
theorem chunkAad_inj {i j : Nat} {f g : Bool} (hi : i ≤ u32Max) (hj : j ≤ u32Max)
    (h : chunkAad i f = chunkAad j g) : i = j ∧ f = g := by
  unfold chunkAad at h
  simp only [List.append_assoc] at h
  obtain ⟨hle, hrest⟩ := List.append_inj (List.append_cancel_left h) (by simp)
  refine ⟨u32Le_inj hi hj hle, ?_⟩
  simp only [List.cons_append, List.cons.injEq] at hrest
  cases f <;> cases g <;> simp_all

/-- `encrypt_chunk`: one window to the frame `[len u32 LE][ct + tag]`. -/
def encryptChunk (E : Cipher) (key : EncryptionKey) (baseIv : List UInt8) (chunkIndex : Nat)
    (isFinal : Bool) (plaintext : List UInt8) : Except StorageError (List UInt8) :=
  if chunkPlaintextSize < plaintext.length then
    .error (.encryption ("chunk plaintext too large: " ++ toString plaintext.length ++
      " bytes (max " ++ toString chunkPlaintextSize ++ ")"))
  else
    let ct := E.encrypt key (chunkNonce baseIv chunkIndex) (chunkAad chunkIndex isFinal) plaintext
    if u32Max < ct.length then .error (.encryption "chunk ciphertext length overflows u32")
    else .ok (u32Le ct.length ++ ct)

/-- `decrypt_chunk`: the ciphertext of one frame, without its length prefix. -/
def decryptChunk (E : Cipher) (key : EncryptionKey) (baseIv : List UInt8) (chunkIndex : Nat)
    (isFinal : Bool) (ciphertext : List UInt8) : Except StorageError (List UInt8) :=
  if ciphertext.length < gcmTagLen then
    .error (.encryption ("chunk " ++ toString chunkIndex ++ " ciphertext too short: " ++
      toString ciphertext.length ++ " bytes"))
  else
    match E.decrypt key (chunkNonce baseIv chunkIndex) (chunkAad chunkIndex isFinal) ciphertext with
    | some pt => .ok pt
    | none => .error (.encryption ("chunk " ++ toString chunkIndex ++
        " decryption failed (wrong key, tampered, or reordered)"))

/-- The frame of a window of at most `CHUNK_PLAINTEXT_SIZE` bytes. -/
def frameOf (E : Cipher) (key : EncryptionKey) (baseIv : List UInt8) (chunkIndex : Nat)
    (isFinal : Bool) (plaintext : List UInt8) : List UInt8 :=
  let ct := E.encrypt key (chunkNonce baseIv chunkIndex) (chunkAad chunkIndex isFinal) plaintext
  u32Le ct.length ++ ct

theorem encryptChunk_eq_frameOf {E : Cipher} {key : EncryptionKey} {baseIv : List UInt8}
    {i : Nat} {f : Bool} {pt : List UInt8} (h : pt.length ≤ chunkPlaintextSize) :
    encryptChunk E key baseIv i f pt = .ok (frameOf E key baseIv i f pt) := by
  have hct := E.length_encrypt key (chunkNonce baseIv i) (chunkAad i f) pt
  unfold encryptChunk frameOf
  rw [if_neg (by omega), if_neg (by unfold u32Max chunkPlaintextSize gcmTagLen at *; omega)]

theorem length_frameOf (E : Cipher) (key : EncryptionKey) (baseIv : List UInt8) (i : Nat)
    (f : Bool) (pt : List UInt8) : (frameOf E key baseIv i f pt).length = 4 + pt.length + 16 := by
  simp only [frameOf, List.length_append, length_u32Le, E.length_encrypt, gcmTagLen]
  omega

/-- The frames of windows `ws` numbered from `i`, frame `k` stamped final
iff `k = finalIndex`: the body of a chunked object after its header. -/
def framesFrom (E : Cipher) (key : EncryptionKey) (baseIv : List UInt8) (finalIndex : Nat) :
    Nat → List (List UInt8) → List (List UInt8)
  | _, [] => []
  | i, w :: ws => frameOf E key baseIv i (i == finalIndex) w :: framesFrom E key baseIv finalIndex (i + 1) ws

section Frames

variable {E : Cipher} {key : EncryptionKey} {baseIv : List UInt8} {f : Nat}

@[simp] theorem framesFrom_nil (i : Nat) : framesFrom E key baseIv f i [] = [] := rfl

@[simp] theorem framesFrom_cons (i : Nat) (w : List UInt8) (ws : List (List UInt8)) :
    framesFrom E key baseIv f i (w :: ws) =
      frameOf E key baseIv i (i == f) w :: framesFrom E key baseIv f (i + 1) ws := rfl

theorem framesFrom_append (i : Nat) (ws vs : List (List UInt8)) :
    framesFrom E key baseIv f i (ws ++ vs) =
      framesFrom E key baseIv f i ws ++ framesFrom E key baseIv f (i + ws.length) vs := by
  induction ws generalizing i with
  | nil => simp
  | cons w ws ih =>
    rw [List.cons_append, framesFrom_cons, framesFrom_cons, ih, List.length_cons, List.cons_append]
    congr 3
    omega

@[simp] theorem length_framesFrom (i : Nat) (ws : List (List UInt8)) :
    (framesFrom E key baseIv f i ws).length = ws.length := by
  induction ws generalizing i with
  | nil => rfl
  | cons w ws ih => simp [ih]

/-- The final index matters only where it falls among the frames. -/
theorem framesFrom_final_congr {f f' : Nat} (i : Nat) (ws : List (List UInt8))
    (hf : i + ws.length ≤ f) (hf' : i + ws.length ≤ f') :
    framesFrom E key baseIv f i ws = framesFrom E key baseIv f' i ws := by
  induction ws generalizing i with
  | nil => rfl
  | cons w ws ih =>
    simp only [List.length_cons] at hf hf'
    have hi : (i == f) = (i == f') := by
      rw [beq_eq_false_iff_ne.mpr (by omega), beq_eq_false_iff_ne.mpr (by omega)]
    rw [framesFrom_cons, framesFrom_cons, hi, ih (i + 1) (by omega) (by omega)]

/-- The frames of all windows but the last, then the last as a non-final
frame: the frames of all windows, with a later final index. -/
theorem framesFrom_dropLast_append_nonFinal (ws : List (List UInt8)) (w : List UInt8) :
    framesFrom E key baseIv (ws.length - 1) 0 ws.dropLast ++
        (ws.getLast?.map (frameOf E key baseIv (ws.length - 1) false)).toList =
      framesFrom E key baseIv ((ws ++ [w]).length - 1) 0 (ws ++ [w]).dropLast := by
  rcases List.eq_nil_or_concat ws with rfl | ⟨vs, v, rfl⟩
  · rfl
  · rw [List.concat_eq_append]
    have e1 : (vs ++ [v]).length - 1 = vs.length := by simp
    have e2 : (vs ++ [v] ++ [w]).length - 1 = vs.length + 1 := by simp
    have hc : framesFrom E key baseIv vs.length 0 vs = framesFrom E key baseIv (vs.length + 1) 0 vs :=
      framesFrom_final_congr 0 vs (by simp) (by simp)
    have hnf : (vs.length == vs.length + 1) = false := beq_eq_false_iff_ne.mpr (by omega)
    rw [e1, e2, List.dropLast_concat, List.dropLast_concat, List.getLast?_concat, framesFrom_append, hc]
    simp [hnf]

/-- ... and the last as the final frame: the frames of all windows. -/
theorem framesFrom_dropLast_append_final {ws : List (List UInt8)} (hws : ws ≠ []) :
    framesFrom E key baseIv (ws.length - 1) 0 ws.dropLast ++
        [frameOf E key baseIv (ws.length - 1) true (ws.getLast?.getD [])] =
      framesFrom E key baseIv (ws.length - 1) 0 ws := by
  obtain ⟨vs, v, rfl⟩ := (List.eq_nil_or_concat ws).resolve_left hws
  simp [framesFrom_append]

/-- A frame's ciphertext decrypts at its own index and flag. -/
theorem decryptChunk_encrypt (i : Nat) (fin : Bool) (w : List UInt8) :
    decryptChunk E key baseIv i fin (E.encrypt key (chunkNonce baseIv i) (chunkAad i fin) w) =
      .ok w := by
  have hct := E.length_encrypt key (chunkNonce baseIv i) (chunkAad i fin) w
  unfold decryptChunk
  rw [if_neg (by omega), E.decrypt_encrypt]

/-- ... and fails at any other index or flag. -/
theorem decryptChunk_encrypt_of_ne {i i' : Nat} {fin fin' : Bool} (w : List UInt8)
    (hi : i ≤ u32Max) (hi' : i' ≤ u32Max) (hne : (i, fin) ≠ (i', fin')) :
    ∃ e, decryptChunk E key baseIv i fin
      (E.encrypt key (chunkNonce baseIv i') (chunkAad i' fin') w) = .error e := by
  have hct := E.length_encrypt key (chunkNonce baseIv i') (chunkAad i' fin') w
  have haad : chunkAad i fin ≠ chunkAad i' fin' := by
    intro h
    obtain ⟨rfl, rfl⟩ := chunkAad_inj hi hi' h
    exact hne rfl
  unfold decryptChunk
  rw [if_neg (by omega), E.decrypt_encrypt_of_ne (length_chunkAad _ _) (length_chunkAad _ _) haad]
  exact ⟨_, rfl⟩

end Frames

/-! ## The encoding of an object -/

/-- The plaintext windows of an object: 64 KiB blocks, and a single empty
window for the empty object. -/
def windowsOf (plaintext : List UInt8) : List (List UInt8) :=
  if plaintext = [] then [[]] else Blocks.blocks chunkPlaintextSize plaintext

/-- The chunked encoding of `plaintext` under `key` and `baseIv`: the header,
then the frames of its windows, the last one stamped final. -/
def encodeChunked (E : Cipher) (key : EncryptionKey) (baseIv plaintext : List UInt8) : List UInt8 :=
  chunkMagic ++ baseIv ++
    (framesFrom E key baseIv ((windowsOf plaintext).length - 1) 0 (windowsOf plaintext)).flatten

/-! ## `ChunkFramer` -/

/-- `ChunkFramer`: it holds the latest window back until it knows whether
another follows, so that exactly the last frame is stamped final. -/
structure ChunkFramer where
  baseIv : List UInt8
  index : Nat
  pending : Option (List UInt8)
  started : Bool

/-- `ChunkFramer::new`. -/
def ChunkFramer.new (baseIv : List UInt8) : ChunkFramer := ⟨baseIv, 0, none, false⟩

/-- `push_window`: emit the held window as a non-final frame and hold the new one. -/
def ChunkFramer.pushWindow (E : Cipher) (key : EncryptionKey) (fr : ChunkFramer)
    (window : List UInt8) : Except StorageError (Option (List UInt8) × ChunkFramer) :=
  match fr.pending with
  | some prev => do
    let frame ← encryptChunk E key fr.baseIv fr.index false prev
    match checkedAdd u32Max fr.index 1 with
    | none => throw (.encryption "chunk index overflow (object too large)")
    | some next => pure (some frame, { fr with index := next, pending := some window, started := true })
  | none => pure (none, { fr with pending := some window, started := true })

/-- `finish`: the held window, or an empty window, as the final frame. -/
def ChunkFramer.finish (E : Cipher) (key : EncryptionKey) (fr : ChunkFramer) :
    Except StorageError (List UInt8) :=
  encryptChunk E key fr.baseIv fr.index true (fr.pending.getD [])

/-! ## Offsets -/

/-- `chunk_index_for_plaintext_offset`: `(offset / 64 KiB, offset % 64 KiB)`,
each cast `as u32`. -/
def chunkIndexForPlaintextOffset (ptOffset : Nat) : Nat × Nat :=
  ((ptOffset / chunkPlaintextSize) % 2 ^ 32, (ptOffset % chunkPlaintextSize) % 2 ^ 32)

/-- `wire_offset_of_chunk`. -/
def wireOffsetOfChunk (chunkIndex : Nat) : Nat := chunkHeaderLen + chunkIndex * chunkFrameWireLen

/-- `final_chunk_index_for_plaintext_size`: `(size - 1) / 64 KiB as u32`, and 0
for an empty object. -/
def finalChunkIndexForPlaintextSize (plaintextSize : Nat) : Nat :=
  if plaintextSize = 0 then 0 else ((plaintextSize - 1) / chunkPlaintextSize) % 2 ^ 32

end DeltaGlider.Encrypting
