import DeltaGlider.Lib.RustStd

/-!
# Query parsing before authentication

`percent_decode` and `SigV4Params::from_query` of `src/api/auth.rs`.  Both
run on every request, before any credential is checked, so a panic in them
is reachable by an anonymous client.

`percent_decode` walks the input's bytes.  At a `%` with two more bytes it
slices the `&str` at byte offsets `i + 1 .. i + 3`; that slice panics unless
both ends are char boundaries, so `%a` followed by a multi-byte char panics
(`percentDecode_inside_char`).  On what `urlencoding::encode` produces it is
the inverse (`percentDecode_urlEncode`), for every function that encodes as
the crate documents (`UrlEncodes`).

`from_query` parses `X-Amz-Expires` as an `i64` and caps it at seven days
from above only.  `TimeDelta::seconds` panics below `-(i64::MAX / 1000)`
(`checkPresigned_seconds_out_of_bounds`), and a smaller negative value that
passes it still takes the expiry before chrono's earliest date, where
`DateTime + TimeDelta` panics (`checkPresigned_expiry_overflow`).

Times are nanoseconds since the Unix epoch; `parseAmzDate` stands for
`NaiveDateTime::parse_from_str(_, "%Y%m%dT%H%M%SZ")` and answers whole
seconds.  A panic is the `Except.error` of the outer layer, with the
first words of its message.
-/

namespace DeltaGlider.Auth

open RustStd

/-! ## `percent_decode` -/

/-- The panic of `&s[a..b]` at an end that is not a char boundary (the
message goes on to name the char and the string). -/
def notCharBoundary (index : Nat) : String :=
  "byte index " ++ toString index ++ " is not a char boundary"

/-- `u8::from_str_radix(&input[i + 1..i + 3], 16)` once both ends of the
slice are char boundaries: the slice is two ASCII chars or one two-byte char,
and a char past ASCII is no hex digit. -/
def hexPair (b1 b2 : UInt8) : Option UInt8 :=
  if b1 < 0x80 ∧ b2 < 0x80 then
    (fromStrRadix 16 255 [Char.ofNat b1.toNat, Char.ofNat b2.toNat]).map Nat.toUInt8
  else none

/-- The loop of `percent_decode` from byte offset `i` (`bytes[i..]`): the
decoded bytes, or the panic of the slice. -/
def percentDecodeLoop (i : Nat) : List UInt8 → Except String (List UInt8)
  | b :: b1 :: b2 :: tail =>
    -- `bytes[i] == b'%' && i + 2 < bytes.len()`
    if b = 0x25 then
      if isContinuation b1 then .error (notCharBoundary (i + 1))
      else if !isCharBoundary tail 0 then .error (notCharBoundary (i + 3))
      else match hexPair b1 b2 with
        | some byte => (byte :: ·) <$> percentDecodeLoop (i + 3) tail
        | none => (b :: ·) <$> percentDecodeLoop (i + 1) (b1 :: b2 :: tail)
    else (b :: ·) <$> percentDecodeLoop (i + 1) (b1 :: b2 :: tail)
  | b :: rest => (b :: ·) <$> percentDecodeLoop (i + 1) rest
  | [] => .ok []

/-- `percent_decode`, with `String::from_utf8_lossy` on the bytes. -/
def percentDecode (input : String) : Except String String :=
  (percentDecodeLoop 0 (utf8Bytes input.toList)).map fun bytes => String.ofList (fromUtf8Lossy bytes)

theorem percentDecodeLoop_cons_of_ne {i : Nat} {b : UInt8} (rest : List UInt8) (hb : b ≠ 0x25) :
    percentDecodeLoop i (b :: rest) = (b :: ·) <$> percentDecodeLoop (i + 1) rest := by
  match rest with
  | [] => rfl
  | [_] => rfl
  | b1 :: b2 :: tail => simp [percentDecodeLoop, hb]

/-- Bytes without `%` are copied, and the loop goes on after them. -/
theorem percentDecodeLoop_append_of_not_mem {i : Nat} {xs : List UInt8} (ys : List UInt8)
    (hxs : 0x25 ∉ xs) :
    percentDecodeLoop i (xs ++ ys) = (xs ++ ·) <$> percentDecodeLoop (i + xs.length) ys := by
  induction xs generalizing i with
  | nil => simp
  | cons x xs ih =>
    have hx : x ≠ 0x25 := fun h => hxs (h ▸ List.mem_cons_self)
    rw [List.cons_append, percentDecodeLoop_cons_of_ne _ hx,
      ih (fun h => hxs (List.mem_cons_of_mem x h)), List.length_cons,
      show i + 1 + xs.length = i + (xs.length + 1) by omega]
    cases percentDecodeLoop (i + (xs.length + 1)) ys <;> rfl

/-- No char but `%` has the byte `%` in its encoding. -/
theorem not_mem_utf8Bytes_of_not_mem {cs : List Char} (h : '%' ∉ cs) : (0x25 : UInt8) ∉ utf8Bytes cs := by
  intro hmem
  simp only [utf8Bytes, List.mem_flatMap] at hmem
  obtain ⟨c, hc, hb⟩ := hmem
  have h37 : c.toNat = 37 := toNat_eq_of_mem_utf8EncodeChar (by decide) hb
  have hc' : c = '%' := by
    rw [← Char.ofNat_toNat c, h37]
  exact h (hc' ▸ hc)

/-- A `%`, an ASCII char and a char past ASCII: the slice ends inside the
last char, and `percent_decode` panics, whatever comes before (without `%`)
and after. -/
theorem percentDecode_inside_char (a b : List Char) (c m : Char) (ha : '%' ∉ a)
    (hc : c.toNat < 128) (hm : 128 ≤ m.toNat) :
    percentDecode (String.ofList (a ++ '%' :: c :: m :: b)) =
      .error (notCharBoundary ((utf8Bytes a).length + 3)) := by
  obtain ⟨lead, cont, more, hmb, -, hcont⟩ := utf8EncodeChar_of_ge hm
  have hcb : String.utf8EncodeChar c = [UInt8.ofNat c.toNat] := utf8EncodeChar_of_lt hc
  have hbytes : utf8Bytes (String.ofList (a ++ '%' :: c :: m :: b)).toList =
      utf8Bytes a ++ 0x25 :: UInt8.ofNat c.toNat :: lead :: cont :: (more ++ utf8Bytes b) := by
    rw [String.toList_ofList, utf8Bytes_append, utf8Bytes_cons, utf8Bytes_cons, utf8Bytes_cons,
      hcb, hmb]
    rfl
  have hc1 : isContinuation (UInt8.ofNat c.toNat) = false := by
    simp only [isContinuation, Bool.and_eq_false_iff, decide_eq_false_iff_not,
      UInt8.le_iff_toNat_le, UInt8.toNat_ofNat', UInt8.toNat_ofNat]
    left
    omega
  -- the loop copies `a`, then stops at the `%`: the slice's end is inside `m`
  have hloop : percentDecodeLoop (utf8Bytes a).length
      (0x25 :: UInt8.ofNat c.toNat :: lead :: cont :: (more ++ utf8Bytes b)) =
        .error (notCharBoundary ((utf8Bytes a).length + 3)) := by
    rw [percentDecodeLoop.eq_1, if_pos rfl, hc1]
    simp [isCharBoundary, hcont]
  rw [percentDecode, hbytes, percentDecodeLoop_append_of_not_mem _ (not_mem_utf8Bytes_of_not_mem ha),
    Nat.zero_add, hloop]
  rfl

/-- `percent_decode("%aé")` panics: byte 3 is inside the `é`. -/
theorem percentDecode_inside_char_accent :
    percentDecode "%aé" = .error (notCharBoundary 3) :=
  percentDecode_inside_char [] [] 'a' 'é' (List.not_mem_nil) (by decide) (by decide)

/-! ## `urlencoding::encode` and the round trip -/

/-- The bytes `urlencoding::encode` keeps: ASCII letters, digits and `-._~`. -/
def isUnreserved (b : UInt8) : Bool :=
  (0x30 ≤ b && b ≤ 0x39) || (0x41 ≤ b && b ≤ 0x5A) || (0x61 ≤ b && b ≤ 0x7A) ||
    b == 0x2D || b == 0x2E || b == 0x5F || b == 0x7E

/-- An upper-case hex digit. -/
def upperHexDigit (d : Nat) : UInt8 := if d < 10 then UInt8.ofNat (48 + d) else UInt8.ofNat (55 + d)

def encodeByte (b : UInt8) : List UInt8 :=
  if isUnreserved b then [b] else [0x25, upperHexDigit (b.toNat / 16), upperHexDigit (b.toNat % 16)]

/-- The encoding `urlencoding::encode` documents: every byte of the UTF-8
encoding but the unreserved ones becomes `%XX`. -/
def urlEncode (s : String) : String :=
  String.ofList (((utf8Bytes s.toList).flatMap encodeByte).map fun b => Char.ofNat b.toNat)

/-- A function that encodes as `urlencoding::encode` documents. -/
def UrlEncodes (encode : String → String) : Prop := ∀ s, encode s = urlEncode s

theorem upperHexDigit_lt {d : Nat} (hd : d < 16) : (upperHexDigit d).toNat < 0x80 := by
  interval_cases d <;> decide

theorem toDigit_upperHexDigit {d : Nat} (hd : d < 16) :
    toDigit 16 (Char.ofNat (upperHexDigit d).toNat) = some d := by
  interval_cases d <;> decide

theorem upperHexDigit_ne_sign {d : Nat} (hd : d < 16) :
    Char.ofNat (upperHexDigit d).toNat ≠ '+' ∧ Char.ofNat (upperHexDigit d).toNat ≠ '-' := by
  interval_cases d <;> decide

theorem encodeByte_ascii (b : UInt8) : ∀ x ∈ encodeByte b, x.toNat < 0x80 := by
  have h16 := Nat.div_lt_of_lt_mul (show b.toNat < 16 * 16 from b.toNat_lt)
  have hmod := Nat.mod_lt b.toNat (show 0 < 16 by omega)
  unfold encodeByte
  split
  · next hu =>
    simp only [isUnreserved, Bool.or_eq_true, Bool.and_eq_true, decide_eq_true_eq, beq_iff_eq,
      UInt8.le_iff_toNat_le] at hu
    intro x hx
    rw [List.mem_singleton] at hx
    subst hx
    rcases hu with (((((h | h) | h) | h) | h) | h) | h
    · exact Nat.lt_of_le_of_lt h.2 (by decide)
    · exact Nat.lt_of_le_of_lt h.2 (by decide)
    · exact Nat.lt_of_le_of_lt h.2 (by decide)
    all_goals (subst h; decide)
  · intro x hx
    simp only [List.mem_cons, List.not_mem_nil, or_false] at hx
    rcases hx with rfl | rfl | rfl
    · decide
    · exact upperHexDigit_lt h16
    · exact upperHexDigit_lt hmod

/-- The two hex digits of a byte read back as that byte. -/
theorem hexPair_upperHexDigit (b : UInt8) :
    hexPair (upperHexDigit (b.toNat / 16)) (upperHexDigit (b.toNat % 16)) = some b := by
  have h16 := Nat.div_lt_of_lt_mul (show b.toNat < 16 * 16 from b.toNat_lt)
  have hmod := Nat.mod_lt b.toNat (show 0 < 16 by omega)
  obtain ⟨hplus, hminus⟩ := upperHexDigit_ne_sign h16
  have hdigits : fromStrRadix 16 255 [Char.ofNat (upperHexDigit (b.toNat / 16)).toNat,
      Char.ofNat (upperHexDigit (b.toNat % 16)).toNat] = some b.toNat := by
    have hv : digitsValue 16 255 0 [Char.ofNat (upperHexDigit (b.toNat / 16)).toNat,
        Char.ofNat (upperHexDigit (b.toNat % 16)).toNat] = some b.toNat := by
      simp only [digitsValue, toDigit_upperHexDigit h16, toDigit_upperHexDigit hmod]
      rw [if_pos (by omega), if_pos (by omega)]
      congr 1
      omega
    unfold fromStrRadix
    split <;> simp_all
  unfold hexPair
  rw [if_pos ⟨UInt8.lt_iff_toNat_lt.mpr (upperHexDigit_lt h16),
    UInt8.lt_iff_toNat_lt.mpr (upperHexDigit_lt hmod)⟩, hdigits]
  simp

theorem isCharBoundary_zero_of_ascii {l : List UInt8} (h : ∀ x ∈ l, x.toNat < 0x80) :
    isCharBoundary l 0 = true := by
  cases l with
  | nil => rfl
  | cons x l =>
    have hx := h x List.mem_cons_self
    simp only [isCharBoundary, List.drop_zero, isContinuation, Bool.not_eq_eq_eq_not, Bool.not_true,
      Bool.and_eq_false_iff, decide_eq_false_iff_not, UInt8.le_iff_toNat_le]
    left
    exact fun h' => absurd (Nat.lt_of_le_of_lt h' hx) (by decide)

/-- The loop undoes the encoding of any bytes. -/
theorem percentDecodeLoop_encoded (bs : List UInt8) :
    ∀ i, percentDecodeLoop i (bs.flatMap encodeByte) = .ok bs := by
  induction bs with
  | nil => intro i; rfl
  | cons b bs ih =>
    intro i
    have hascii : ∀ x ∈ bs.flatMap encodeByte, x.toNat < 0x80 := by
      intro x hx
      obtain ⟨b', -, hx'⟩ := List.mem_flatMap.mp hx
      exact encodeByte_ascii b' x hx'
    rw [List.flatMap_cons]
    by_cases hu : isUnreserved b = true
    · -- an unreserved byte is not `%`, and is copied
      have hb : b ≠ 0x25 := by
        rintro rfl
        simp [isUnreserved] at hu
      rw [show encodeByte b = [b] from if_pos hu, List.singleton_append,
        percentDecodeLoop_cons_of_ne _ hb, ih]
      rfl
    · -- `%XX`: the slice is two ASCII chars, and reads back as `b`
      have h16 := Nat.div_lt_of_lt_mul (show b.toNat < 16 * 16 from b.toNat_lt)
      have hc1 : isContinuation (upperHexDigit (b.toNat / 16)) = false := by
        have := upperHexDigit_lt h16
        simp only [isContinuation, Bool.and_eq_false_iff, decide_eq_false_iff_not,
          UInt8.le_iff_toNat_le]
        left
        exact fun h' => absurd (Nat.lt_of_le_of_lt h' this) (by decide)
      rw [show encodeByte b = [0x25, upperHexDigit (b.toNat / 16), upperHexDigit (b.toNat % 16)]
        from if_neg hu, List.cons_append, List.cons_append, List.cons_append, List.nil_append,
        percentDecodeLoop.eq_1, if_pos rfl, hc1, isCharBoundary_zero_of_ascii hascii]
      simp only [Bool.false_eq_true, if_false, Bool.not_true]
      rw [hexPair_upperHexDigit, ih]
      rfl

theorem utf8Bytes_ascii {bs : List UInt8} (h : ∀ x ∈ bs, x.toNat < 0x80) :
    utf8Bytes (bs.map fun b => Char.ofNat b.toNat) = bs := by
  induction bs with
  | nil => rfl
  | cons b bs ih =>
    have hb := h b List.mem_cons_self
    have hc : (Char.ofNat b.toNat).toNat = b.toNat := by
      rw [Char.toNat_ofNat, if_pos (show b.toNat.isValidChar from Or.inl (by omega))]
    rw [List.map_cons, utf8Bytes_cons, utf8EncodeChar_of_lt (by omega), hc, UInt8.ofNat_toNat,
      ih fun x hx => h x (List.mem_cons_of_mem b hx)]
    rfl

/-- `percent_decode(urlencoding::encode(s)) = s` for every string. -/
theorem percentDecode_urlEncode (encode : String → String) (hencode : UrlEncodes encode) (s : String) :
    percentDecode (encode s) = .ok s := by
  rw [hencode s]
  have hascii : ∀ x ∈ (utf8Bytes s.toList).flatMap encodeByte, x.toNat < 0x80 := by
    intro x hx
    obtain ⟨b', -, hx'⟩ := List.mem_flatMap.mp hx
    exact encodeByte_ascii b' x hx'
  rw [percentDecode, urlEncode, String.toList_ofList, utf8Bytes_ascii hascii,
    percentDecodeLoop_encoded]
  show Except.ok (String.ofList (fromUtf8Lossy (utf8Bytes s.toList))) = _
  rw [fromUtf8Lossy_utf8Bytes, String.ofList_toList]

theorem percentDecode_urlEncode_path :
    UrlEncodes urlEncode ∧ percentDecode (urlEncode "a b/é") = .ok "a b/é" :=
  ⟨fun _ => rfl, percentDecode_urlEncode urlEncode (fun _ => rfl) "a b/é"⟩

/-! ## `SigV4Params::from_query` -/

/-- The `S3Error`s `from_query` answers with. -/
inductive S3Error where
  | accessDenied
  | invalidArgument (msg : String)
  | requestTimeTooSkewed
  deriving DecidableEq, Repr

/-- `SigV4Params`. -/
structure SigV4Params where
  accessKey : String
  signature : String
  payloadHash : String
  deriving DecidableEq, Repr

/-- The query's `key=value` pairs in order, percent-decoded; a pair without
`=` is dropped (`filter_map` with `split_once('=')?`). -/
def decodePairs : List (List Char) → Except String (List (String × String))
  | [] => .ok []
  | pair :: rest =>
    match splitOnce '=' pair with
    | none => decodePairs rest
    | some (k, v) => do
      let key ← percentDecode (String.ofList k)
      let value ← percentDecode (String.ofList v)
      let tail ← decodePairs rest
      pure ((key, value) :: tail)

/-- `params.get(key).cloned().unwrap_or_default()` on the collected
`HashMap`: the last pair with the key wins. -/
def queryParam (pairs : List (String × String)) (key : String) : String :=
  ((pairs.reverse.find? fun p => p.1 == key).map (·.2)).getD ""

/-- `date/region/s3/aws4_request`. -/
def validScope (scope : List Char) : Bool :=
  match scope.splitOn '/' with
  | [_, _, service, terminator] => service == "s3".toList && terminator == "aws4_request".toList
  | _ => false

/-- `MAX_PRESIGNED_EXPIRY`, seven days in seconds. -/
def maxPresignedExpiry : Int := 604800

def nanosPerSec : Int := 1000000000

/-- `TimeDelta::seconds`: at most `i64::MAX / 1000` seconds either way, else
a panic. -/
def timeDeltaSeconds (secs : Int) : Except String Int :=
  if secs < -(i64Max / 1000) ∨ i64Max / 1000 < secs then .error "TimeDelta::seconds out of bounds"
  else .ok (secs * nanosPerSec)

/-- chrono's earliest and latest instants, `-262144-01-01T00:00:00` and
`+262143-12-31T23:59:59.999999999`. -/
def minInstant : Int := -8334632937600 * nanosPerSec

def maxInstant : Int := 8210298412799 * nanosPerSec + 999999999

/-- `DateTime + TimeDelta`, which panics outside chrono's range. -/
def dateTimeAdd (t d : Int) : Except String Int :=
  if t + d < minInstant ∨ maxInstant < t + d then .error "`DateTime + TimeDelta` overflowed"
  else .ok (t + d)

/-- The expiry step of `from_query`: `request_utc +
TimeDelta::seconds(expires_secs)`, then the check against the clock. -/
def presignedExpiry (now requestUtc expiresSecs : Int) (params : SigV4Params) :
    Except String (Except S3Error SigV4Params) := do
  let validity ← timeDeltaSeconds expiresSecs
  let expiry ← dateTimeAdd requestUtc validity
  if expiry < now then pure (.error .accessDenied) else pure (.ok params)

/-- What `from_query` does with the four parameters: the credential and its
scope, the expiry cap, the date, the future-skew check and the expiry. -/
def checkPresigned (parseAmzDate : String → Option Int) (now : Int)
    (credential signature amzDate expires : String) : Except String (Except S3Error SigV4Params) :=
  if credential.isEmpty || signature.isEmpty then pure (.error .accessDenied)
  else match splitOnce '/' credential.toList with
  | none => pure (.error .accessDenied)
  | some (accessKey, scope) =>
    if !validScope scope then pure (.error (.invalidArgument "Invalid credential scope format"))
    else if expires.isEmpty then
      pure (.error (.invalidArgument "X-Amz-Expires is required for presigned URLs"))
    else match i64FromStr expires.toList with
    | none => pure (.error (.invalidArgument ("Invalid X-Amz-Expires: " ++ expires)))
    | some expiresSecs =>
      -- only an upper cap: a negative value goes on
      if maxPresignedExpiry < expiresSecs then
        pure (.error (.invalidArgument ("X-Amz-Expires=" ++ toString expiresSecs ++
          " exceeds maximum of 604800 seconds (7 days)")))
      else match parseAmzDate amzDate with
      | none => pure (.error (.invalidArgument ("Invalid X-Amz-Date: " ++ amzDate)))
      | some requestTime => do
        let requestUtc := requestTime * nanosPerSec
        let params : SigV4Params := ⟨String.ofList accessKey, signature, "UNSIGNED-PAYLOAD"⟩
        let futureLimit ← timeDeltaSeconds maxPresignedExpiry
        let latest ← dateTimeAdd now futureLimit
        if latest < requestUtc then pure (.error .requestTimeTooSkewed)
        else presignedExpiry now requestUtc expiresSecs params

/-- `SigV4Params::from_query` on the request's query string. -/
def fromQuery (parseAmzDate : String → Option Int) (now : Int) (query : Option String) :
    Except String (Except S3Error SigV4Params) := do
  let pairs ← decodePairs (((query.getD "").toList.splitOn '&').filter (· ≠ []))
  checkPresigned parseAmzDate now (queryParam pairs "X-Amz-Credential")
    (queryParam pairs "X-Amz-Signature") (queryParam pairs "X-Amz-Date")
    (queryParam pairs "X-Amz-Expires")

section Presigned

variable {parseAmzDate : String → Option Int} {now : Int}
  {credential signature amzDate expires : String} {accessKey scope : List Char}
  {requestTime e : Int}

/-- The path of a well-formed, current presigned query up to the expiry
arithmetic: the checks before it pass. -/
theorem checkPresigned_eq_expiry (hsig : signature ≠ "")
    (hcred : splitOnce '/' credential.toList = some (accessKey, scope))
    (hscope : validScope scope = true) (hexp : i64FromStr expires.toList = some e)
    (hcap : e ≤ maxPresignedExpiry) (hdate : parseAmzDate amzDate = some requestTime)
    (hnow : minInstant ≤ now + maxPresignedExpiry * nanosPerSec ∧
      now + maxPresignedExpiry * nanosPerSec ≤ maxInstant)
    (hfresh : requestTime * nanosPerSec ≤ now + maxPresignedExpiry * nanosPerSec) :
    checkPresigned parseAmzDate now credential signature amzDate expires =
      presignedExpiry now (requestTime * nanosPerSec) e
        ⟨String.ofList accessKey, signature, "UNSIGNED-PAYLOAD"⟩ := by
  have hcne : credential.isEmpty = false := by
    cases hc : credential.isEmpty
    · rfl
    · rw [String.isEmpty_iff.mp hc] at hcred
      cases hcred
  have hsne : signature.isEmpty = false := by simpa using hsig
  have hene : expires.isEmpty = false := by
    cases he : expires.isEmpty
    · rfl
    · rw [String.isEmpty_iff.mp he] at hexp
      cases hexp
  have hlimit : timeDeltaSeconds maxPresignedExpiry = .ok (maxPresignedExpiry * nanosPerSec) := by
    rw [timeDeltaSeconds, if_neg (by decide)]
  have hlatest : dateTimeAdd now (maxPresignedExpiry * nanosPerSec) =
      .ok (now + maxPresignedExpiry * nanosPerSec) := by
    rw [dateTimeAdd, if_neg (by omega)]
  simp only [checkPresigned, hcne, hsne, Bool.or_false, Bool.false_eq_true, if_false, hcred,
    hscope, Bool.not_true, hene, hexp, if_neg (not_lt.mpr hcap), hdate, hlimit]
  show (dateTimeAdd now _ >>= _) = _
  rw [hlatest]
  exact if_neg (not_lt.mpr hfresh)

/-- An `X-Amz-Expires` below `-(i64::MAX / 1000)` on an otherwise valid,
current presigned URL: `TimeDelta::seconds` panics. -/
theorem checkPresigned_seconds_out_of_bounds (hsig : signature ≠ "")
    (hcred : splitOnce '/' credential.toList = some (accessKey, scope))
    (hscope : validScope scope = true) (hexp : i64FromStr expires.toList = some e)
    (hdate : parseAmzDate amzDate = some requestTime)
    (hnow : minInstant ≤ now + maxPresignedExpiry * nanosPerSec ∧
      now + maxPresignedExpiry * nanosPerSec ≤ maxInstant)
    (hfresh : requestTime * nanosPerSec ≤ now + maxPresignedExpiry * nanosPerSec)
    (he : e < -(i64Max / 1000)) :
    checkPresigned parseAmzDate now credential signature amzDate expires =
      .error "TimeDelta::seconds out of bounds" := by
  have hcap : e ≤ maxPresignedExpiry := by unfold maxPresignedExpiry i64Max at *; omega
  rw [checkPresigned_eq_expiry hsig hcred hscope hexp hcap hdate hnow hfresh, presignedExpiry,
    timeDeltaSeconds, if_pos (.inl he)]
  rfl

/-- A negative `X-Amz-Expires` that `TimeDelta::seconds` takes but that puts
the expiry before chrono's earliest instant: `DateTime + TimeDelta` panics. -/
theorem checkPresigned_expiry_overflow (hsig : signature ≠ "")
    (hcred : splitOnce '/' credential.toList = some (accessKey, scope))
    (hscope : validScope scope = true) (hexp : i64FromStr expires.toList = some e)
    (hdate : parseAmzDate amzDate = some requestTime)
    (hnow : minInstant ≤ now + maxPresignedExpiry * nanosPerSec ∧
      now + maxPresignedExpiry * nanosPerSec ≤ maxInstant)
    (hfresh : requestTime * nanosPerSec ≤ now + maxPresignedExpiry * nanosPerSec)
    (he : -(i64Max / 1000) ≤ e ∧ e ≤ 0)
    (hbefore : requestTime * nanosPerSec + e * nanosPerSec < minInstant) :
    checkPresigned parseAmzDate now credential signature amzDate expires =
      .error "`DateTime + TimeDelta` overflowed" := by
  have hcap : e ≤ maxPresignedExpiry := by unfold maxPresignedExpiry; omega
  have hin : ¬ (e < -(i64Max / 1000) ∨ i64Max / 1000 < e) := by unfold i64Max at *; omega
  rw [checkPresigned_eq_expiry hsig hcred hscope hexp hcap hdate hnow hfresh, presignedExpiry,
    timeDeltaSeconds, if_neg hin]
  show (dateTimeAdd _ _ >>= _) = _
  rw [dateTimeAdd, if_pos (.inl hbefore)]
  rfl

end Presigned

end DeltaGlider.Auth
