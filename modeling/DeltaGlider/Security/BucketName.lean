import DeltaGlider.Lib.IpAddr

/-!
# Bucket names

`validate_bucket_name`, `bucket_name_is_ip_like` and `parse_ip_segment` of
`src/security.rs`.  A name is checked in the source's order: empty, length in
UTF-8 bytes within 3..=63, characters in `[a-z0-9.-]`, no `..`, an
alphanumeric first and last char, and last not IP-like.  A name is IP-like
when `IpAddr` parses it, or when it splits at dots into two or four segments
that `parse_ip_segment` reads (hex after `0x`, octal after a leading `0`, else
decimal), each at most `0xFFFF_FFFF`.

Beside the code stands the BSD `inet_aton` grammar (`inetAton`): one to four
parts, each hex, octal or decimal, every part but the last a byte and the
last filling the bytes left.

    inet_aton reads name, 2 or 4 parts → validateBucketName name ≠ ok   (aton_pairs_quads_rejected)
    name.count '.' = 2 → (validateBucketName name = ok ↔ the other checks pass)
                                                                        (two_dot_names_unchecked)
    lowercase letters and '-', length, start and end rules → ok         (letters_hyphens_valid)

A name of three parts is never IP-like to the code, so the shorthand
`a.b.c` of `inet_aton` passes: `127.0.1` (127.0.0.1) and `169.254.43518`
(169.254.169.254) are accepted bucket names (`dotted_shorthand_accepted`).
-/

namespace DeltaGlider.Security

open StdNet RustStd

/-! ## Algorithm -/

/-- `parse_ip_segment`: `0x` or `0X` and a hex number, a leading `0` and an
octal number (the whole segment read in radix 8), else `str::parse::<u64>`. -/
def parseIpSegment : List Char → Option Nat
  | [] => none
  | '0' :: 'x' :: rest => fromStrRadix 16 u64Max rest
  | '0' :: 'X' :: rest => fromStrRadix 16 u64Max rest
  | '0' :: c :: rest => fromStrRadix 8 u64Max ('0' :: c :: rest)
  | seg => fromStrRadix 10 u64Max seg

/-- `bucket_name_is_ip_like`. -/
def bucketNameIsIpLike (name : List Char) : Bool :=
  if (parseIpAddr name).isSome then true
  else
    let parts := name.splitOn '.'
    if parts.length = 2 ∨ parts.length = 4 then
      match parts.mapM parseIpSegment with
      | some v => v.all fun n => decide (n ≤ 0xFFFFFFFF)
      | none => false
    else false

/-- `BucketNameError`. -/
inductive BucketNameError where
  | empty
  | badLength (len : Nat)
  | badChar
  | consecutiveDots
  | badStart
  | badEnd
  | ipLike
  deriving DecidableEq, Repr

/-- The chars a bucket name may hold: ASCII lowercase, digits, `-` and `.`. -/
def bucketNameChar (c : Char) : Bool := c.isLower || c.isDigit || c == '-' || c == '.'

/-- `validate_bucket_name`. -/
def validateBucketName (name : List Char) : Except BucketNameError Unit :=
  if name.isEmpty then .error .empty
  else
    let len := (utf8Bytes name).length
    if ¬(3 ≤ len ∧ len ≤ 63) then .error (.badLength len)
    else if ¬name.all bucketNameChar then .error .badChar
    else if ['.', '.'] <:+: name then .error .consecutiveDots
    else if ¬name.head?.any Char.isAlphanum then .error .badStart
    else if ¬name.getLast?.any Char.isAlphanum then .error .badEnd
    else if bucketNameIsIpLike name then .error .ipLike
    else .ok ()

example : validateBucketName "127.0.0.1".toList = .error .ipLike := by decide
example : validateBucketName "0177.1".toList = .error .ipLike := by decide
example : validateBucketName "0400".toList = .ok () := by decide
example : validateBucketName "a..b".toList = .error .consecutiveDots := by decide

/-! ## The BSD `inet_aton` grammar -/

/-- The bound of one part: 32 bits. -/
def atonMax : Nat := 0xFFFFFFFF

/-- One part of `inet_aton`: `0x` or `0X` and hex digits, a leading `0` and
octal digits, or decimal digits, within 32 bits. -/
def atonPart : List Char → Option Nat
  | '0' :: 'x' :: ds => if ds = [] then none else digitsValue 16 atonMax 0 ds
  | '0' :: 'X' :: ds => if ds = [] then none else digitsValue 16 atonMax 0 ds
  | '0' :: ds => digitsValue 8 atonMax 0 ds
  | [] => none
  | ds => digitsValue 10 atonMax 0 ds

/-- `inet_aton`: the address of one to four dot-separated parts, every part
but the last one byte, the last filling the bytes left. -/
def inetAton (name : List Char) : Option Nat :=
  match (name.splitOn '.').mapM atonPart with
  | some [a] => some a
  | some [a, b] => if a ≤ 0xFF ∧ b ≤ 0xFFFFFF then some (a * 2 ^ 24 + b) else none
  | some [a, b, c] =>
    if a ≤ 0xFF ∧ b ≤ 0xFF ∧ c ≤ 0xFFFF then some (a * 2 ^ 24 + b * 2 ^ 16 + c) else none
  | some [a, b, c, d] =>
    if a ≤ 0xFF ∧ b ≤ 0xFF ∧ c ≤ 0xFF ∧ d ≤ 0xFF then
      some (a * 2 ^ 24 + b * 2 ^ 16 + c * 2 ^ 8 + d)
    else none
  | _ => none

example : inetAton "0x7f.1".toList = some 0x7F000001 := by decide
example : inetAton "1.2.3.256".toList = none := by decide

/-! ## Lemmas -/

theorem atonMax_le_u64Max : atonMax ≤ u64Max := by decide

/-- What `inet_aton` reads as one part, `parse_ip_segment` reads to the same
value, and the value fits in 32 bits. -/
theorem parseIpSegment_of_atonPart {seg : List Char} {v : Nat} (h : atonPart seg = some v) :
    parseIpSegment seg = some v ∧ v ≤ 0xFFFFFFFF := by
  -- both read the same digits; only the bound differs, 32 against 64 bits
  have hfit : ∀ {radix : Nat} {ds : List Char}, digitsValue radix atonMax 0 ds = some v →
      v ≤ 0xFFFFFFFF :=
    fun hd => digitsValue_le hd (Nat.zero_le _)
  have hwide : ∀ {radix : Nat} {ds : List Char}, digitsValue radix atonMax 0 ds = some v →
      digitsValue radix u64Max 0 ds = some v :=
    fun hd => digitsValue_of_le hd atonMax_le_u64Max
  -- after `0x` or `0X` both read the rest in hex
  have hhex : ∀ {ds : List Char}, (if ds = [] then none else digitsValue 16 atonMax 0 ds) = some v →
      fromStrRadix 16 u64Max ds = some v ∧ v ≤ 0xFFFFFFFF := by
    intro ds hd
    split_ifs at hd with hds
    exact ⟨fromStrRadix_of_digitsValue hds (hwide hd), hfit hd⟩
  unfold atonPart at h
  split at h
  · exact hhex h
  · exact hhex h
  · rename_i ds hx hX
    cases ds with
    | nil =>
      cases h
      exact ⟨rfl, by decide⟩
    | cons c rest =>
      -- the source reads the whole segment in radix 8, its leading zero included
      rw [parseIpSegment.eq_4 c rest (fun hc => hx rest (hc ▸ rfl)) (fun hc => hX rest (hc ▸ rfl))]
      refine ⟨fromStrRadix_of_digitsValue (List.cons_ne_nil _ _) ?_, hfit h⟩
      rw [digitsValue_zero_cons (by decide)]
      exact hwide h
  · cases h
  · rename_i hx hX h0 hnil
    rw [parseIpSegment.eq_5 seg hnil hx hX (fun c rest hc => h0 (c :: rest) hc)]
    exact ⟨fromStrRadix_of_digitsValue hnil (hwide h), hfit h⟩

theorem mapM_parseIpSegment_of_atonPart {parts : List (List Char)} {vs : List Nat}
    (h : parts.mapM atonPart = some vs) :
    parts.mapM parseIpSegment = some vs ∧ ∀ v ∈ vs, v ≤ 0xFFFFFFFF :=
  mapM_of_forall_some (fun _ _ hv => parseIpSegment_of_atonPart hv) h

theorem parts_of_inetAton {name : List Char} {addr : Nat} (h : inetAton name = some addr) :
    ∃ vs, (name.splitOn '.').mapM atonPart = some vs := by
  cases hm : (name.splitOn '.').mapM atonPart with
  | none => simp [inetAton, hm] at h
  | some vs => exact ⟨vs, rfl⟩

theorem bucketNameIsIpLike_of_parts {name : List Char} {vs : List Nat}
    (hparts : (name.splitOn '.').length = 2 ∨ (name.splitOn '.').length = 4)
    (hvs : (name.splitOn '.').mapM parseIpSegment = some vs) (hle : ∀ v ∈ vs, v ≤ 0xFFFFFFFF) :
    bucketNameIsIpLike name = true := by
  unfold bucketNameIsIpLike
  dsimp only
  split_ifs with hip
  · rfl
  · rw [hvs]
    exact List.all_eq_true.mpr fun v hv => decide_eq_true (hle v hv)

/-- A name with fewer than three dots, no colon, and neither two nor four
segments is not IP-like. -/
theorem bucketNameIsIpLike_of_count {name : List Char} (h4 : name.count '.' < 3) (h6 : ':' ∉ name)
    (hparts : ¬((name.splitOn '.').length = 2 ∨ (name.splitOn '.').length = 4)) :
    bucketNameIsIpLike name = false := by
  unfold bucketNameIsIpLike
  dsimp only
  rw [parseIpAddr_of_count h4 h6, if_neg hparts]
  rfl

/-- `validate_bucket_name` accepts exactly the names that pass every check. -/
theorem validateBucketName_eq_ok_iff {name : List Char} :
    validateBucketName name = .ok () ↔
      3 ≤ (utf8Bytes name).length ∧ (utf8Bytes name).length ≤ 63 ∧ name.all bucketNameChar ∧
        ¬ ['.', '.'] <:+: name ∧ name.head?.any Char.isAlphanum ∧ name.getLast?.any Char.isAlphanum ∧
        bucketNameIsIpLike name = false := by
  unfold validateBucketName
  dsimp only
  split_ifs <;> simp_all

/-- Every name of two or four parts that `inet_aton` reads is rejected. -/
theorem aton_pairs_quads_rejected {name : List Char} {addr : Nat} (haton : inetAton name = some addr)
    (hparts : (name.splitOn '.').length = 2 ∨ (name.splitOn '.').length = 4) :
    validateBucketName name ≠ .ok () := by
  obtain ⟨vs, hvs⟩ := parts_of_inetAton haton
  obtain ⟨hseg, hle⟩ := mapM_parseIpSegment_of_atonPart hvs
  have hip := bucketNameIsIpLike_of_parts hparts hseg hle
  intro hok
  obtain ⟨-, -, -, -, -, -, hnot⟩ := validateBucketName_eq_ok_iff.mp hok
  rw [hip] at hnot
  cases hnot

/-- `10.1`, which `inet_aton` reads as `10.0.0.1`. -/
theorem aton_pairs_quads_rejected_pair :
    inetAton "10.1".toList = some (10 * 2 ^ 24 + 1) ∧ ("10.1".toList.splitOn '.').length = 2 ∧
      validateBucketName "10.1".toList ≠ .ok () :=
  ⟨by decide, by decide, @aton_pairs_quads_rejected "10.1".toList (10 * 2 ^ 24 + 1) (by decide) (.inl (by decide))⟩

/-- A name with two dots is never IP-like to the code: it is accepted as soon
as it passes the other checks, whatever address `inet_aton` makes of it. -/
theorem two_dot_names_unchecked {name : List Char} (hdots : name.count '.' = 2) :
    validateBucketName name = .ok () ↔
      3 ≤ (utf8Bytes name).length ∧ (utf8Bytes name).length ≤ 63 ∧ name.all bucketNameChar ∧
        ¬ ['.', '.'] <:+: name ∧ name.head?.any Char.isAlphanum ∧ name.getLast?.any Char.isAlphanum := by
  rw [validateBucketName_eq_ok_iff]
  constructor
  · rintro ⟨h1, h2, h3, h4, h5, h6, -⟩
    exact ⟨h1, h2, h3, h4, h5, h6⟩
  · rintro ⟨h1, h2, h3, h4, h5, h6⟩
    have hcolon : ':' ∉ name := by
      intro hm
      have := List.all_eq_true.mp h3 ':' hm
      revert this
      decide
    have hparts : (name.splitOn '.').length = 3 := by rw [length_splitOn, hdots]
    exact ⟨h1, h2, h3, h4, h5, h6, bucketNameIsIpLike_of_count (by omega) hcolon (by omega)⟩

/-- `10.0.1`, which `inet_aton` reads as `10.0.0.1`. -/
theorem two_dot_names_unchecked_aton :
    "10.0.1".toList.count '.' = 2 ∧
      (validateBucketName "10.0.1".toList = .ok () ↔
        3 ≤ (utf8Bytes "10.0.1".toList).length ∧ (utf8Bytes "10.0.1".toList).length ≤ 63 ∧
          "10.0.1".toList.all bucketNameChar ∧ ¬ ['.', '.'] <:+: "10.0.1".toList ∧
          "10.0.1".toList.head?.any Char.isAlphanum ∧ "10.0.1".toList.getLast?.any Char.isAlphanum) :=
  ⟨by decide, two_dot_names_unchecked (by decide)⟩

/-- A name of lowercase letters and `-` that meets the length, start and end
rules is accepted. -/
theorem letters_hyphens_valid {name : List Char} (hchars : ∀ c ∈ name, c.isLower = true ∨ c = '-')
    (hlen : 3 ≤ name.length ∧ name.length ≤ 63) (hstart : name.head?.any Char.isAlphanum = true)
    (hend : name.getLast?.any Char.isAlphanum = true) : validateBucketName name = .ok () := by
  have hascii : ∀ c ∈ name, c.toNat < 128 := by
    intro c hc
    rcases hchars c hc with hl | rfl
    · exact toNat_lt_of_isLower hl
    · decide
  have hnot : ∀ d, d.isLower = false → d ≠ '-' → d ∉ name := by
    intro d hd hne hm
    rcases hchars d hm with hl | heq
    · rw [hd] at hl
      cases hl
    · exact hne heq
  have hdot : '.' ∉ name := hnot '.' (by decide) (by decide)
  have hcolon : ':' ∉ name := hnot ':' (by decide) (by decide)
  have hcount : name.count '.' = 0 := List.count_eq_zero_of_not_mem hdot
  rw [validateBucketName_eq_ok_iff, length_utf8Bytes_of_ascii hascii]
  refine ⟨hlen.1, hlen.2, ?_, fun hinf => hdot (hinf.subset (by simp)), hstart, hend, ?_⟩
  · apply List.all_eq_true.mpr
    intro c hc
    rcases hchars c hc with hl | rfl
    · simp [bucketNameChar, hl]
    · decide
  · apply bucketNameIsIpLike_of_count (by omega) hcolon
    rw [length_splitOn, hcount]
    omega

/-- The shorthand `a.b.c` of `inet_aton` passes: `127.0.1` is the loopback
address and `169.254.43518` the metadata address, and both are valid bucket
names. -/
theorem dotted_shorthand_accepted :
    '.' ∈ "127.0.1".toList ∧ inetAton "127.0.1".toList = some 0x7F000001 ∧
      validateBucketName "127.0.1".toList = .ok () ∧
    '.' ∈ "169.254.43518".toList ∧ inetAton "169.254.43518".toList = some 0xA9FEA9FE ∧
      validateBucketName "169.254.43518".toList = .ok () := by
  decide

theorem letters_hyphens_valid_my_bucket :
    (∀ c ∈ "my-bucket".toList, c.isLower = true ∨ c = '-') ∧ validateBucketName "my-bucket".toList = .ok () :=
  have hchars : ∀ c ∈ "my-bucket".toList, c.isLower = true ∨ c = '-' := by simp [Char.isLower]
  ⟨hchars, letters_hyphens_valid hchars (by decide) (by decide) (by decide)⟩

end DeltaGlider.Security
