import Mathlib
import DeltaGlider.Lib.RustStd

/-!
# `decode_aws_chunked`: the AWS streaming-payload decoder

Model of `src/api/aws_chunked.rs`.  A body is a byte list; the decoder walks
it from byte offset `pos` (the list `rest` is `body[pos..]`).  Each chunk
header line ends at the first CRLF (`findCrlf`); its size is the hex token
before the first `;`, trimmed, parsed as a `usize`.  A zero size ends the
chunks and `consumeTrailers` skips trailer lines up to the empty line.

`pos + chunk_size` is `usize` arithmetic: past `usize::MAX` the source
panics (debug: the add; release: the wrapped slice end lies before `pos`),
so the decoder's result is `Except String (Option (List UInt8))` with the
panic message as the error.  `Vec::with_capacity` is an allocation hint and
is not modelled.

    decodeAwsChunked (wireBody chunks ext0 trailers) none = .ok (some p)   (decodeAwsChunked_wireBody)
-/

namespace DeltaGlider.AwsChunked

open RustStd

/-! ## Bytes -/

/-- UTF-8 bytes of a string. -/
def utf8 (cs : List Char) : List UInt8 := cs.flatMap String.utf8EncodeChar

/-- No `\r\n` anywhere in the bytes. -/
def NoCrlf (l : List UInt8) : Prop := ¬ [13, 10] <:+: l

instance (l : List UInt8) : Decidable (NoCrlf l) := inferInstanceAs (Decidable (¬ _))

@[simp] theorem utf8_append (xs ys : List Char) : utf8 (xs ++ ys) = utf8 xs ++ utf8 ys := by
  simp [utf8]

theorem utf8Decode?_utf8 (cs : List Char) : (utf8 cs).toByteArray.utf8Decode? = some cs.toArray :=
  List.utf8Decode?_utf8Encode

theorem noCrlf_nil : NoCrlf [] := by simp [NoCrlf]

theorem noCrlf_singleton (a : UInt8) : NoCrlf [a] := by
  intro h
  have := h.length_le
  simp at this

theorem noCrlf_cons_cons {a b : UInt8} {l : List UInt8} :
    NoCrlf (a :: b :: l) ↔ ¬ (a = 13 ∧ b = 10) ∧ NoCrlf (b :: l) := by
  simp only [NoCrlf, @List.infix_cons_iff _ _ a _, List.cons_prefix_cons, List.nil_prefix, and_true]
  constructor
  · intro h
    exact ⟨fun ⟨h1, h2⟩ => h (Or.inl ⟨h1.symm, h2.symm⟩), fun h' => h (Or.inr h')⟩
  · rintro ⟨h1, h2⟩ (⟨e1, e2⟩ | h')
    · exact h1 ⟨e1.symm, e2.symm⟩
    · exact h2 h'

theorem NoCrlf.tail {a : UInt8} {l : List UInt8} (h : NoCrlf (a :: l)) : NoCrlf l :=
  fun h' => h (h'.trans (List.suffix_cons a l).isInfix)

theorem NoCrlf.cons {a : UInt8} {l : List UInt8} (hl : NoCrlf l) (ha : a = 13 → l.head? ≠ some 10) :
    NoCrlf (a :: l) := by
  cases l with
  | nil => exact noCrlf_singleton a
  | cons b l => exact noCrlf_cons_cons.mpr ⟨fun ⟨h1, h2⟩ => ha h1 (by simp [h2]), hl⟩

/-! ## The decoder -/

/-- `find_crlf`: the index of the first `\r\n` in `data`. -/
def findCrlf : List UInt8 → Option Nat
  | a :: b :: rest => if a = 13 ∧ b = 10 then some 0 else (findCrlf (b :: rest)).map (· + 1)
  | _ => none

theorem findCrlf_add_two_le : ∀ {data : List UInt8} {i : Nat}, findCrlf data = some i →
    i + 2 ≤ data.length
  | a :: b :: rest, i, h => by
    unfold findCrlf at h
    split at h
    · cases h; simp
    · obtain ⟨j, hj, rfl⟩ := Option.map_eq_some_iff.mp h
      have := findCrlf_add_two_le hj
      simp only [List.length_cons] at this ⊢
      omega
  | [], _, h => by simp [findCrlf] at h
  | [_], _, h => by simp [findCrlf] at h

/-- `find_crlf` stops at the first CRLF: before it a line without one. -/
theorem findCrlf_eq_some : ∀ {data : List UInt8} {i : Nat}, findCrlf data = some i →
    NoCrlf (data.take i) ∧ data = data.take i ++ 13 :: 10 :: data.drop (i + 2)
  | a :: b :: rest, i, h => by
    unfold findCrlf at h
    split at h
    · next hab =>
      cases h
      obtain ⟨rfl, rfl⟩ := hab
      exact ⟨noCrlf_nil, rfl⟩
    · next hab =>
      obtain ⟨j, hj, rfl⟩ := Option.map_eq_some_iff.mp h
      obtain ⟨hnc, heq⟩ := findCrlf_eq_some hj
      refine ⟨?_, ?_⟩
      · rw [List.take_succ_cons]
        refine hnc.cons fun ha => ?_
        rw [List.head?_take]
        split
        · simp
        · simpa using fun hb => hab ⟨ha, hb⟩
      · have hdrop : (a :: b :: rest).drop (j + 1 + 2) = (b :: rest).drop (j + 2) := by
          rw [show j + 1 + 2 = (j + 2) + 1 by omega, List.drop_succ_cons]
        rw [List.take_succ_cons, List.cons_append, hdrop, ← heq]
  | [], _, h => by simp [findCrlf] at h
  | [_], _, h => by simp [findCrlf] at h

/-- The size field of a chunk header line, as `decode_aws_chunked` reads it:
`from_utf8(line).ok()?`, `split(';').next()?.trim()`,
`usize::from_str_radix(_, 16).ok()?`. -/
def chunkSizeOfHeader (headerLine : List UInt8) : Option Nat := do
  let s ← headerLine.toByteArray.utf8Decode?
  fromStrRadix 16 usizeMax (trim (s.toList.takeWhile (· ≠ ';')))

/-- `consume_trailers`: skip trailer lines up to and including the empty
line; `none` if the body ends first.  Returns the bytes after the empty line. -/
def consumeTrailers (rest : List UInt8) : Option (List UInt8) :=
  match h : findCrlf rest with
  | none => none
  | some lineEnd =>
    if lineEnd = 0 then some (rest.drop 2)
    else consumeTrailers (rest.drop (lineEnd + 2))
termination_by rest.length
decreasing_by have := findCrlf_add_two_le h; simp only [List.length_drop]; omega

/-- The panic raised when `pos + chunk_size` leaves `usize`. -/
def addOverflow : String := "attempt to add with overflow"

/-- The chunk loop of `decode_aws_chunked`: `pos` is the byte offset of
`rest` in the body, `result` the payload decoded so far. -/
def decodeLoop (pos : Nat) (rest result : List UInt8) : Except String (Option (List UInt8)) :=
  match _h : findCrlf rest with
  | none => .ok none
  | some headerEnd =>
    let body := rest.drop (headerEnd + 2)
    match chunkSizeOfHeader (rest.take headerEnd) with
    | none => .ok none
    | some chunkSize =>
      if chunkSize = 0 then .ok ((consumeTrailers body).map fun _ => result)
      else if usizeMax < pos + headerEnd + 2 + chunkSize then .error addOverflow
      else if body.length < chunkSize then .ok none
      -- every data chunk must be followed by CRLF
      else if (body.drop chunkSize).take 2 ≠ [13, 10] then .ok none
      else decodeLoop (pos + headerEnd + 2 + chunkSize + 2) ((body.drop chunkSize).drop 2)
        (result ++ body.take chunkSize)
termination_by rest.length
decreasing_by have := findCrlf_add_two_le _h; simp only [List.length_drop]; omega

/-- `decode_aws_chunked(body, expected_length)`. -/
def decodeAwsChunked (body : List UInt8) (expectedLength : Option Nat) :
    Except String (Option (List UInt8)) := do
  match ← decodeLoop 0 body [] with
  | none => pure none
  | some result =>
    match expectedLength with
    | some expected => pure (if result.length ≠ expected then none else some result)
    | none => pure (some result)

/-! ## The wire format the SDKs send -/

/-- A chunk header line: `<hex-size><ext>\r\n` (`format!("{:x}", size)`). -/
def chunkHeader (size : Nat) (ext : List Char) : List UInt8 :=
  utf8 (Nat.toDigits 16 size ++ ext) ++ [13, 10]

/-- One data chunk on the wire: header line, the bytes, CRLF. -/
def wireChunk (c : List UInt8) (ext : List Char) : List UInt8 :=
  chunkHeader c.length ext ++ c ++ [13, 10]

/-- An aws-chunked body: the data chunks with their header extensions, the
zero-size terminator with its extension, the trailer lines, the empty line. -/
def wireBody (chunks : List (List UInt8 × List Char)) (ext0 : List Char)
    (trailers : List (List UInt8)) : List UInt8 :=
  chunks.flatMap (fun ce => wireChunk ce.1 ce.2) ++ chunkHeader 0 ext0 ++
    trailers.flatMap (· ++ [13, 10]) ++ [13, 10]

/-- A header extension: nothing, or `;...` (such as `;chunk-signature=<sig>`)
whose bytes hold no CRLF. -/
def ValidExt (ext : List Char) : Prop :=
  (ext = [] ∨ ext.head? = some ';') ∧ NoCrlf (utf8 ext)

instance (ext : List Char) : Decidable (ValidExt ext) := inferInstanceAs (Decidable (_ ∧ _))

/-! ## Framing lemmas -/

theorem noCrlf_append_of_not_mem {xs ys : List UInt8} (h13 : (13 : UInt8) ∉ xs)
    (hy : NoCrlf ys) : NoCrlf (xs ++ ys) := by
  induction xs with
  | nil => simpa using hy
  | cons a xs ih =>
    have ha : a ≠ 13 := fun h => h13 (by simp [h])
    have ht := ih (fun h => h13 (List.mem_cons_of_mem a h))
    rw [List.cons_append]
    cases hxy : xs ++ ys with
    | nil => exact noCrlf_singleton a
    | cons b l =>
      rw [noCrlf_cons_cons]
      exact ⟨fun h => ha h.1, hxy ▸ ht⟩

/-- The first CRLF after a line without one is the line's end. -/
theorem findCrlf_append_crlf {xs : List UInt8} (ys : List UInt8) (h : NoCrlf xs) :
    findCrlf (xs ++ 13 :: 10 :: ys) = some xs.length := by
  induction xs with
  | nil => simp [findCrlf]
  | cons a xs ih =>
    have ih' := ih h.tail
    rw [List.cons_append]
    cases xs with
    | nil => simp [findCrlf]
    | cons b l =>
      have hab := (noCrlf_cons_cons.mp h).1
      rw [List.cons_append] at ih' ⊢
      rw [findCrlf, if_neg hab, ih']
      simp

theorem utf8EncodeChar_digitChar {d : Nat} (hd : d < 16) :
    String.utf8EncodeChar d.digitChar = [d.digitChar.toNat.toUInt8] := by
  have := (by decide : ∀ d : Fin 16,
    String.utf8EncodeChar (Nat.digitChar d) = [(Nat.digitChar d).toNat.toUInt8])
  exact this ⟨d, hd⟩

theorem not_mem_utf8_toDigits (n : Nat) : (13 : UInt8) ∉ utf8 (Nat.toDigits 16 n) := by
  simp only [utf8, List.mem_flatMap, not_exists, not_and]
  intro c hc
  obtain ⟨d, hd, rfl⟩ := RustStd.mem_toDigits_sixteen hc
  rw [utf8EncodeChar_digitChar hd, List.mem_singleton]
  have := (by decide : ∀ d : Fin 16, (Nat.digitChar d).toNat.toUInt8 ≠ 13)
  exact fun h => this ⟨d, hd⟩ h.symm

theorem takeWhile_toDigits_ext {n : Nat} {ext : List Char} (he : ext = [] ∨ ext.head? = some ';') :
    (Nat.toDigits 16 n ++ ext).takeWhile (· ≠ ';') = Nat.toDigits 16 n := by
  have hd : ∀ c ∈ Nat.toDigits 16 n, c ≠ ';' := by
    intro c hc
    obtain ⟨d, hd, rfl⟩ := RustStd.mem_toDigits_sixteen hc
    have := (by decide : ∀ d : Fin 16, Nat.digitChar d ≠ ';')
    exact this ⟨d, hd⟩
  rw [List.takeWhile_append_of_pos (by simpa using hd)]
  rcases he with rfl | he
  · simp
  · cases ext with
    | nil => simp at he
    | cons c cs =>
      simp only [List.head?_cons, Option.some.injEq] at he
      simp [he]

/-- A header line reads back its size. -/
theorem chunkSizeOfHeader_header {n : Nat} {ext : List Char} (hn : n ≤ usizeMax)
    (he : ext = [] ∨ ext.head? = some ';') :
    chunkSizeOfHeader (utf8 (Nat.toDigits 16 n ++ ext)) = some n := by
  simp only [chunkSizeOfHeader, utf8Decode?_utf8, Option.bind_eq_bind, Option.bind_some,
    takeWhile_toDigits_ext he,
    trim_of_forall (RustStd.isWhitespace_toDigits n), fromStrRadix_toDigits hn]

theorem noCrlf_header {n : Nat} {ext : List Char} (he : ValidExt ext) :
    NoCrlf (utf8 (Nat.toDigits 16 n ++ ext)) := by
  rw [utf8_append]
  exact noCrlf_append_of_not_mem (not_mem_utf8_toDigits n) he.2

/-! ## Decoding the wire format -/

/-- The trailer section is skipped exactly up to its empty line. -/
theorem consumeTrailers_lines (trailers : List (List UInt8)) (rest : List UInt8)
    (ht : ∀ t ∈ trailers, t ≠ [] ∧ NoCrlf t) :
    consumeTrailers (trailers.flatMap (· ++ [13, 10]) ++ 13 :: 10 :: rest) = some rest := by
  induction trailers with
  | nil =>
    rw [consumeTrailers]
    split
    · next h => simp [findCrlf] at h
    · next lineEnd h =>
      simp only [findCrlf, and_self, if_true, Option.some.injEq, List.flatMap_nil,
        List.nil_append] at h
      simp [← h]
  | cons t ts ih =>
    obtain ⟨hne, hnc⟩ := ht t (by simp)
    have hf := findCrlf_append_crlf (ts.flatMap (· ++ [13, 10]) ++ 13 :: 10 :: rest) hnc
    have hlen : t.length ≠ 0 := by simpa using hne
    rw [consumeTrailers]
    split
    · next h => simp [hf] at h
    · next lineEnd h =>
      simp only [List.flatMap_cons, List.append_assoc, List.cons_append, List.nil_append] at h
      rw [hf, Option.some.injEq] at h
      subst h
      rw [if_neg hlen]
      simpa using ih (fun t' h' => ht t' (List.mem_cons_of_mem t h'))

/-- One data chunk: the header frames exactly the chunk's bytes. -/
theorem decodeLoop_wireChunk {pos : Nat} {c : List UInt8} {ext : List Char}
    {tail result : List UInt8} (hc : c ≠ []) (he : ValidExt ext)
    (hfit : pos + (wireChunk c ext ++ tail).length ≤ usizeMax) :
    decodeLoop pos (wireChunk c ext ++ tail) result =
      decodeLoop (pos + (wireChunk c ext).length) tail (result ++ c) := by
  set H := utf8 (Nat.toDigits 16 c.length ++ ext) with hH
  have hshape : wireChunk c ext ++ tail = H ++ 13 :: 10 :: (c ++ 13 :: 10 :: tail) := by
    simp [wireChunk, chunkHeader, hH]
  have hwlen : (wireChunk c ext).length = H.length + 2 + c.length + 2 := by
    simp [wireChunk, chunkHeader, hH]; omega
  have hlen : (wireChunk c ext ++ tail).length = H.length + 2 + c.length + 2 + tail.length := by
    simp [hwlen]
  have hf : findCrlf (H ++ 13 :: 10 :: (c ++ 13 :: 10 :: tail)) = some H.length :=
    findCrlf_append_crlf _ (noCrlf_header he)
  have hsize : chunkSizeOfHeader H = some c.length := chunkSizeOfHeader_header (by omega) he.1
  have hc0 : c.length ≠ 0 := by simpa using hc
  rw [hshape, decodeLoop]
  split
  · next h => rw [hf] at h; cases h
  · next headerEnd h =>
    rw [hf, Option.some.injEq] at h
    subst h
    have hbody : (H ++ 13 :: 10 :: (c ++ 13 :: 10 :: tail)).drop (H.length + 2) =
        c ++ 13 :: 10 :: tail := by simp
    simp only [hbody, List.take_left' rfl, hsize, if_neg hc0]
    -- the size fits, is present in full and is followed by CRLF
    split
    · next hover => omega
    split
    · next hshort => simp at hshort
    split
    · next hcrlf => simp at hcrlf
    rw [hwlen]
    congr 1
    · omega
    · simp

/-- The zero-size terminator, the trailer lines and the empty line end the
loop with the payload decoded so far. -/
theorem decodeLoop_terminator {pos : Nat} {ext0 : List Char} {trailers : List (List UInt8)}
    {rest result : List UInt8} (he : ValidExt ext0) (ht : ∀ t ∈ trailers, t ≠ [] ∧ NoCrlf t) :
    decodeLoop pos (chunkHeader 0 ext0 ++ trailers.flatMap (· ++ [13, 10]) ++ 13 :: 10 :: rest)
      result = .ok (some result) := by
  set H := utf8 (Nat.toDigits 16 0 ++ ext0) with hH
  set T := trailers.flatMap (· ++ [13, 10]) ++ 13 :: 10 :: rest with hT
  have hshape : chunkHeader 0 ext0 ++ trailers.flatMap (· ++ [13, 10]) ++ 13 :: 10 :: rest =
      H ++ 13 :: 10 :: T := by
    simp [chunkHeader, hH, hT]
  have hf : findCrlf (H ++ 13 :: 10 :: T) = some H.length :=
    findCrlf_append_crlf _ (noCrlf_header he)
  have hsize : chunkSizeOfHeader H = some 0 := chunkSizeOfHeader_header (Nat.zero_le _) he.1
  rw [hshape, decodeLoop]
  split
  · next h => rw [hf] at h; cases h
  · next headerEnd h =>
    rw [hf, Option.some.injEq] at h
    subst h
    simp [hsize, hT, consumeTrailers_lines trailers rest ht]

/-- All data chunks, in order. -/
theorem decodeLoop_chunks (chunks : List (List UInt8 × List Char)) (tail : List UInt8)
    (hc : ∀ ce ∈ chunks, ce.1 ≠ [] ∧ ValidExt ce.2) :
    ∀ pos result, pos + (chunks.flatMap (fun ce => wireChunk ce.1 ce.2) ++ tail).length ≤ usizeMax →
      decodeLoop pos (chunks.flatMap (fun ce => wireChunk ce.1 ce.2) ++ tail) result =
        decodeLoop (pos + (chunks.flatMap (fun ce => wireChunk ce.1 ce.2)).length) tail
          (result ++ chunks.flatMap Prod.fst) := by
  induction chunks with
  | nil => intro pos result _; simp
  | cons ce cs ih =>
    intro pos result hfit
    obtain ⟨hne, hext⟩ := hc ce (by simp)
    have ih' := ih (fun ce' h' => hc ce' (List.mem_cons_of_mem ce h'))
    simp only [List.flatMap_cons, List.append_assoc] at hfit ⊢
    rw [decodeLoop_wireChunk hne hext hfit, ih' _ _ (by simp only [List.length_append] at hfit ⊢; omega)]
    simp [Nat.add_assoc]

theorem decodeLoop_wireBody (chunks : List (List UInt8 × List Char)) (ext0 : List Char)
    (trailers : List (List UInt8)) (hc : ∀ ce ∈ chunks, ce.1 ≠ [] ∧ ValidExt ce.2)
    (h0 : ValidExt ext0) (ht : ∀ t ∈ trailers, t ≠ [] ∧ NoCrlf t)
    (hfit : (wireBody chunks ext0 trailers).length ≤ isizeMax) :
    decodeLoop 0 (wireBody chunks ext0 trailers) [] = .ok (some (chunks.flatMap Prod.fst)) := by
  have hfit' : 0 + (wireBody chunks ext0 trailers).length ≤ usizeMax := by
    have := isizeMax_lt_usizeMax; omega
  unfold wireBody at hfit' ⊢
  simp only [List.append_assoc] at hfit' ⊢
  rw [decodeLoop_chunks chunks _ hc 0 [] hfit', ← List.append_assoc, decodeLoop_terminator h0 ht]
  simp

theorem decodeAwsChunked_of_loop {body result : List UInt8} (expectedLength : Option Nat)
    (h : decodeLoop 0 body [] = .ok (some result)) :
    decodeAwsChunked body expectedLength =
      .ok (match expectedLength with
        | some expected => if result.length ≠ expected then none else some result
        | none => some result) := by
  rw [decodeAwsChunked, h]
  cases expectedLength <;> rfl

/-- An SDK-framed body decodes to its payload; with an expected length the
payload is returned exactly when the length matches. -/
theorem decodeAwsChunked_wireBody (chunks : List (List UInt8 × List Char)) (ext0 : List Char)
    (trailers : List (List UInt8)) (hc : ∀ ce ∈ chunks, ce.1 ≠ [] ∧ ValidExt ce.2)
    (h0 : ValidExt ext0) (ht : ∀ t ∈ trailers, t ≠ [] ∧ NoCrlf t)
    (hfit : (wireBody chunks ext0 trailers).length ≤ isizeMax) :
    decodeAwsChunked (wireBody chunks ext0 trailers) none = .ok (some (chunks.flatMap Prod.fst)) ∧
      ∀ n, decodeAwsChunked (wireBody chunks ext0 trailers) (some n) =
        .ok (if n = (chunks.flatMap Prod.fst).length then some (chunks.flatMap Prod.fst)
          else none) := by
  have hloop := decodeLoop_wireBody chunks ext0 trailers hc h0 ht hfit
  refine ⟨decodeAwsChunked_of_loop none hloop, fun n => ?_⟩
  rw [decodeAwsChunked_of_loop (some n) hloop]
  dsimp only
  by_cases hn : n = (chunks.flatMap Prod.fst).length
  · rw [if_neg (show ¬ (chunks.flatMap Prod.fst).length ≠ n from by simp [hn]), if_pos hn]
  · rw [if_pos (Ne.symm hn), if_neg hn]

/-- `5;s CRLF hello CRLF 0 CRLF x:1 CRLF CRLF` decodes to `hello`. -/
theorem decodeAwsChunked_wireBody_hello :
    (∀ ce ∈ [(([104, 101, 108, 108, 111] : List UInt8), [';', 's'])], ce.1 ≠ [] ∧ ValidExt ce.2) ∧
      ValidExt [] ∧ (∀ t ∈ [([120, 58, 49] : List UInt8)], t ≠ [] ∧ NoCrlf t) ∧
      (wireBody [([104, 101, 108, 108, 111], [';', 's'])] [] [[120, 58, 49]]).length ≤ isizeMax ∧
      (decodeAwsChunked (wireBody [([104, 101, 108, 108, 111], [';', 's'])] [] [[120, 58, 49]])
          none = .ok (some [104, 101, 108, 108, 111]) ∧
        ∀ n, decodeAwsChunked (wireBody [([104, 101, 108, 108, 111], [';', 's'])] [] [[120, 58, 49]])
          (some n) = .ok (if n = 5 then some [104, 101, 108, 108, 111] else none)) :=
  have hc : ∀ ce ∈ [(([104, 101, 108, 108, 111] : List UInt8), [';', 's'])],
      ce.1 ≠ [] ∧ ValidExt ce.2 := by decide
  have h0 : ValidExt [] := by decide
  have ht : ∀ t ∈ [([120, 58, 49] : List UInt8)], t ≠ [] ∧ NoCrlf t := by decide
  have hfit : (wireBody [([104, 101, 108, 108, 111], [';', 's'])] [] [[120, 58, 49]]).length ≤
      isizeMax := by decide
  ⟨hc, h0, ht, hfit, decodeAwsChunked_wireBody _ _ _ hc h0 ht hfit⟩

/-! ## What the decoder accepts -/

/-- A body that begins with the aws-chunked framing of payload `p`: data
chunks, each a header line without CRLF whose size token reads as the chunk's
length, CRLF, the bytes and CRLF; then a header line of size zero, trailer
lines (non-empty, without CRLF) and the empty line.  What follows the empty
line is not read. -/
inductive Framed : List UInt8 → List UInt8 → Prop
  | terminator {line : List UInt8} {trailers : List (List UInt8)} (rest : List UInt8)
      (hline : NoCrlf line) (hsize : chunkSizeOfHeader line = some 0)
      (htrailers : ∀ t ∈ trailers, t ≠ [] ∧ NoCrlf t) :
      Framed (line ++ 13 :: 10 :: (trailers.flatMap (· ++ [13, 10]) ++ 13 :: 10 :: rest)) []
  | chunk {line c tail p : List UInt8} (hline : NoCrlf line)
      (hsize : chunkSizeOfHeader line = some c.length) (hc : c ≠ []) (htail : Framed tail p) :
      Framed (line ++ 13 :: 10 :: (c ++ 13 :: 10 :: tail)) (c ++ p)

/-- `consume_trailers` succeeds only on trailer lines and the empty line. -/
theorem consumeTrailers_eq_some {rest r : List UInt8} (h : consumeTrailers rest = some r) :
    ∃ trailers : List (List UInt8), (∀ t ∈ trailers, t ≠ [] ∧ NoCrlf t) ∧
      rest = trailers.flatMap (· ++ [13, 10]) ++ 13 :: 10 :: r := by
  induction rest using consumeTrailers.induct generalizing r with
  | case1 rest hnone =>
    rw [consumeTrailers] at h
    split at h
    · cases h
    · next lineEnd h' => rw [hnone] at h'; cases h'
  | case2 rest hline =>
    rw [consumeTrailers] at h
    split at h
    · next h' => rw [hline] at h'; cases h'
    · next lineEnd' h' =>
      rw [hline, Option.some.injEq] at h'
      subst h'
      rw [if_pos rfl, Option.some.injEq] at h
      subst h
      obtain ⟨-, hsplit⟩ := findCrlf_eq_some hline
      exact ⟨[], by simp, by simpa using hsplit⟩
  | case3 rest lineEnd hline hzero ih =>
    rw [consumeTrailers] at h
    split at h
    · next h' => rw [hline] at h'; cases h'
    · next lineEnd' h' =>
      rw [hline, Option.some.injEq] at h'
      subst h'
      rw [if_neg hzero] at h
      obtain ⟨trailers, ht, hrest⟩ := ih h
      obtain ⟨hnc, hsplit⟩ := findCrlf_eq_some hline
      have hlen := findCrlf_add_two_le hline
      refine ⟨rest.take lineEnd :: trailers, ?_, ?_⟩
      · intro t ht'
        rcases List.mem_cons.mp ht' with rfl | ht'
        · refine ⟨List.ne_nil_of_length_pos ?_, hnc⟩
          rw [List.length_take]
          omega
        · exact ht t ht'
      · rw [List.flatMap_cons, List.append_assoc, List.append_assoc, ← hrest]
        simpa using hsplit

/-- A list that starts with CRLF. -/
theorem eq_crlf_of_take_two {l : List UInt8} (h : l.take 2 = [13, 10]) :
    l = 13 :: 10 :: l.drop 2 := by
  match l, h with
  | a :: b :: rest, h =>
    simp only [List.take_succ_cons, List.take_zero, List.cons.injEq, and_true] at h
    obtain ⟨rfl, rfl⟩ := h
    rfl

/-- One turn of the chunk loop, read backwards: a payload comes from the
zero-size terminator and its trailers, or from a data chunk framed by its
header and CRLF, and the rest of the loop. -/
theorem decodeLoop_eq_some {pos : Nat} {rest result p : List UInt8}
    (h : decodeLoop pos rest result = .ok (some p)) :
    ∃ lineEnd, findCrlf rest = some lineEnd ∧
      ((chunkSizeOfHeader (rest.take lineEnd) = some 0 ∧ p = result ∧
          ∃ r, consumeTrailers (rest.drop (lineEnd + 2)) = some r) ∨
        ∃ c tail, chunkSizeOfHeader (rest.take lineEnd) = some c.length ∧ c ≠ [] ∧
          rest.drop (lineEnd + 2) = c ++ 13 :: 10 :: tail ∧
          decodeLoop (pos + lineEnd + 2 + c.length + 2) tail (result ++ c) = .ok (some p)) := by
  rw [decodeLoop] at h
  split at h
  · cases h
  · next lineEnd hline =>
    refine ⟨lineEnd, hline, ?_⟩
    dsimp only at h
    split at h
    · cases h
    · next chunkSize hsize =>
      split at h
      · next hzero =>
        -- the terminator: the trailers must end with the empty line
        subst hzero
        cases ht : consumeTrailers (rest.drop (lineEnd + 2)) with
        | none => rw [ht] at h; cases h
        | some r =>
          rw [ht] at h
          cases h
          exact .inl ⟨hsize, rfl, r, rfl⟩
      · next hzero =>
        split at h
        · cases h
        split at h
        · cases h
        split at h
        · cases h
        -- a data chunk: all of it present, then CRLF
        next hfit hshort hcrlf =>
          set body := rest.drop (lineEnd + 2)
          have hc : (body.take chunkSize).length = chunkSize := by
            rw [List.length_take]
            omega
          refine .inr ⟨body.take chunkSize, (body.drop chunkSize).drop 2, by rw [hc]; exact hsize,
            ?_, ?_, by rw [hc]; exact h⟩
          · exact List.ne_nil_of_length_pos (by omega)
          · rw [← eq_crlf_of_take_two (not_not.mp hcrlf), List.take_append_drop]

/-- What the chunk loop returns is the payload decoded so far followed by
the payload of a framed prefix of the rest. -/
theorem decodeLoop_framed : ∀ (n : Nat) {pos : Nat} {rest result p : List UInt8},
    rest.length ≤ n → decodeLoop pos rest result = .ok (some p) →
      ∃ q, p = result ++ q ∧ Framed rest q := by
  intro n
  induction n with
  | zero =>
    intro pos rest result p hn h
    obtain ⟨lineEnd, hline, -⟩ := decodeLoop_eq_some h
    have := findCrlf_add_two_le hline
    omega
  | succ n ih =>
    intro pos rest result p hn h
    obtain ⟨lineEnd, hline, hcase⟩ := decodeLoop_eq_some h
    obtain ⟨hnc, hsplit⟩ := findCrlf_eq_some hline
    rcases hcase with ⟨hsize, rfl, r, hr⟩ | ⟨c, tail, hsize, hc, hbody, hloop⟩
    · obtain ⟨trailers, ht, hrest⟩ := consumeTrailers_eq_some hr
      refine ⟨[], by simp, ?_⟩
      rw [hsplit, hrest]
      exact .terminator r hnc hsize ht
    · -- the rest of the loop runs on a strictly shorter tail
      have htail : tail.length ≤ n := by
        have := congrArg List.length hbody
        simp only [List.length_drop, List.length_append, List.length_cons] at this
        have := findCrlf_add_two_le hline
        have : c.length ≠ 0 := by simpa using hc
        omega
      obtain ⟨q, rfl, hq⟩ := ih htail hloop
      refine ⟨c ++ q, by simp, ?_⟩
      rw [hsplit, hbody]
      exact .chunk hnc hsize hc hq

/-- Whatever `decode_aws_chunked` returns is the payload of a framed prefix
of the body: no header, CRLF or trailer byte is passed through. -/
theorem decodeAwsChunked_framed {body p : List UInt8} {expectedLength : Option Nat}
    (h : decodeAwsChunked body expectedLength = .ok (some p)) : Framed body p := by
  cases hloop : decodeLoop 0 body [] with
  | error e => rw [decodeAwsChunked, hloop] at h; cases h
  | ok r =>
    cases r with
    | none => rw [decodeAwsChunked, hloop] at h; cases h
    | some result =>
      rw [decodeAwsChunked_of_loop expectedLength hloop, Except.ok.injEq] at h
      -- the expected-length check only drops a result, it never changes one
      have hp : result = p := by
        cases expectedLength with
        | none => exact Option.some.inj h
        | some n =>
          dsimp only at h
          split at h
          · cases h
          · exact Option.some.inj h
      obtain ⟨q, hq, hframed⟩ := decodeLoop_framed _ le_rfl hloop
      rw [← hp, hq]
      simpa using hframed

/-- A chunk whose size runs past `usize::MAX` from where its bytes start
makes `pos + chunk_size` overflow: the decoder panics, whatever follows the
header and whatever length is expected. -/
theorem decodeAwsChunked_size_overflow {line : List UInt8} {n : Nat} (rest : List UInt8)
    (expectedLength : Option Nat) (hline : NoCrlf line) (hsize : chunkSizeOfHeader line = some n)
    (hn : n ≠ 0) (hover : usizeMax < line.length + 2 + n) :
    decodeAwsChunked (line ++ 13 :: 10 :: rest) expectedLength = .error addOverflow := by
  have hloop : decodeLoop 0 (line ++ 13 :: 10 :: rest) [] = .error addOverflow := by
    rw [decodeLoop]
    split
    · next h => rw [findCrlf_append_crlf rest hline] at h; cases h
    · next lineEnd h =>
      rw [findCrlf_append_crlf rest hline, Option.some.injEq] at h
      subst h
      dsimp only
      rw [List.take_left' rfl, hsize]
      dsimp only
      rw [if_neg hn, if_pos (by omega)]
  rw [decodeAwsChunked, hloop]
  rfl

/-- `ffffffffffffffff CRLF`: the size token is `usize::MAX`. -/
theorem decodeAwsChunked_size_overflow_max :
    NoCrlf (utf8 (List.replicate 16 'f')) ∧ chunkSizeOfHeader (utf8 (List.replicate 16 'f')) = some usizeMax ∧
      usizeMax ≠ 0 ∧ usizeMax < (utf8 (List.replicate 16 'f')).length + 2 + usizeMax ∧
      decodeAwsChunked (utf8 (List.replicate 16 'f') ++ 13 :: 10 :: []) none = .error addOverflow :=
  have hline : NoCrlf (utf8 (List.replicate 16 'f')) := by decide
  have hsize : chunkSizeOfHeader (utf8 (List.replicate 16 'f')) = some usizeMax := by
    simp only [chunkSizeOfHeader, utf8Decode?_utf8, Option.bind_eq_bind, Option.bind_some]
    decide
  have hn : usizeMax ≠ 0 := by decide
  have hover : usizeMax < (utf8 (List.replicate 16 'f')).length + 2 + usizeMax := by decide
  ⟨hline, hsize, hn, hover, decodeAwsChunked_size_overflow [] none hline hsize hn hover⟩
end DeltaGlider.AwsChunked
