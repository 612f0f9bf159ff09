import Mathlib

/-!
# Rust standard-library semantics used by the models

Machine-integer bounds, little- and big-endian byte layouts, `char::to_digit`,
`char::is_whitespace`, `str::trim` and `from_str_radix`, each as the Rust
standard library documents it.  Nothing here names the proxy: the decoders
of the proxy instantiate these definitions.

    fromStrRadix 16 usizeMax (Nat.toDigits 16 n) = some n   (fromStrRadix_toDigits, n ≤ usizeMax)
    fromStrRadix 10 u64Max (toString n).toList = some n    (fromStrRadix_toString, n ≤ u64Max)
    fromStrRadix radix max cs = digitsValue radix max 0 cs  (fromStrRadix_of_digitsValue, when it reads)
    (l.splitOn a).length = l.count a + 1                    (length_splitOn)
    u32FromLe (u32Le n) = n                                   (u32FromLe_u32Le, n ≤ u32Max)
    strFind (seg ++ pat ++ rest) pat = some seg.length        (strFind_append, first occurrence)
    r < d ++ w ↔ r < d                                        (lt_append_iff_of_incomparable, neither
                                                               of r, d a prefix of the other)
    p <+: a ++ s, ¬ p <+: a ↔ p = a ++ s.take i, 0 < i        (not_prefix_iff_of_prefix_append)
    l.length % w.length = 0 ∧ (chunks w.length l).all (· = w)
      ↔ l is w repeated                                       (chunks_all_eq_iff)
-/

namespace RustStd

/-! ## Integer bounds -/

def u32Max : Nat := 2 ^ 32 - 1

def usizeMax : Nat := 2 ^ 64 - 1

def u64Max : Nat := 2 ^ 64 - 1

/-- A Rust slice or `Vec` holds at most `isize::MAX` bytes. -/
def isizeMax : Nat := 2 ^ 63 - 1

theorem isizeMax_lt_usizeMax : isizeMax < usizeMax := by decide

def i64Max : Int := 2 ^ 63 - 1

def i64Min : Int := -2 ^ 63

/-- `i64::saturating_add`: the sum, clamped to the `i64` range. -/
def i64SaturatingAdd (a b : Int) : Int := max i64Min (min i64Max (a + b))

/-- `i64::saturating_sub`: the difference, clamped to the `i64` range. -/
def i64SaturatingSub (a b : Int) : Int := max i64Min (min i64Max (a - b))

/-- `u64::saturating_add`. -/
def u64SaturatingAdd (a b : Nat) : Nat := min (a + b) u64Max

/-- `u64::saturating_mul`. -/
def u64SaturatingMul (a b : Nat) : Nat := min (a * b) u64Max

/-- `u64::div_ceil`: the quotient rounded up. -/
def divCeil (a b : Nat) : Nat := (a + b - 1) / b

/-- `Ord::clamp`: `x` brought into `lo..=hi`. -/
def clamp (x lo hi : Nat) : Nat := min (max x lo) hi

theorem one_le_clamp {x hi : Nat} (h : 1 ≤ hi) : 1 ≤ clamp x 1 hi := by
  unfold clamp
  omega

/-- `n as i64` for `n : u64`: two's-complement reinterpretation. -/
def u64AsI64 (n : Nat) : Int := if n < 2 ^ 63 then n else (n : Int) - 2 ^ 64

/-- `u32::checked_add` and friends: the sum if it fits under `max`. -/
def checkedAdd (max a b : Nat) : Option Nat :=
  if a + b ≤ max then some (a + b) else none

@[simp] theorem checkedAdd_of_le {max a b : Nat} (h : a + b ≤ max) :
    checkedAdd max a b = some (a + b) :=
  if_pos h

@[simp] theorem checkedAdd_of_lt {max a b : Nat} (h : max < a + b) :
    checkedAdd max a b = none :=
  if_neg (Nat.not_le.mpr h)

/-! ## Byte layouts of a `u32` -/

/-- `n.to_le_bytes()` for `n : u32`. -/
def u32Le (n : Nat) : List UInt8 :=
  [UInt8.ofNat n, UInt8.ofNat (n / 2 ^ 8), UInt8.ofNat (n / 2 ^ 16), UInt8.ofNat (n / 2 ^ 24)]

/-- `n.to_be_bytes()` for `n : u32`. -/
def u32Be (n : Nat) : List UInt8 := (u32Le n).reverse

/-- `u32::from_le_bytes` of the first four bytes (missing bytes read as zero). -/
def u32FromLe (bs : List UInt8) : Nat :=
  (bs.getD 0 0).toNat + 2 ^ 8 * (bs.getD 1 0).toNat + 2 ^ 16 * (bs.getD 2 0).toNat +
    2 ^ 24 * (bs.getD 3 0).toNat

@[simp] theorem length_u32Le (n : Nat) : (u32Le n).length = 4 := rfl

theorem u32FromLe_u32Le {n : Nat} (h : n ≤ u32Max) : u32FromLe (u32Le n) = n := by
  simp only [u32FromLe, u32Le, List.getD_cons_zero, List.getD_cons_succ, UInt8.toNat_ofNat']
  unfold u32Max at h
  omega

theorem u32FromLe_append {bs rest : List UInt8} (h : bs.length = 4) :
    u32FromLe (bs ++ rest) = u32FromLe bs := by
  match bs, h with
  | [a, b, c, d], _ => rfl

theorem u32Le_inj {m n : Nat} (hm : m ≤ u32Max) (hn : n ≤ u32Max) (h : u32Le m = u32Le n) :
    m = n := by
  rw [← u32FromLe_u32Le hm, ← u32FromLe_u32Le hn, h]

/-! ## Formatting -/

/-- `{:02x}` of a byte: two lowercase hex digits. -/
def hex02 (b : UInt8) : String :=
  let ds := Nat.toDigits 16 b.toNat
  String.ofList (List.replicate (2 - ds.length) '0' ++ ds)

/-- `hex::encode`: two lowercase hex digits per byte. -/
def hexEncode (bs : List UInt8) : String :=
  String.join (bs.map hex02)

theorem hex02_ne_empty (b : UInt8) : hex02 b ≠ "" := by
  intro h
  have := congrArg String.toList h
  simp [hex02] at this

/-- The hex of at least one byte is not empty. -/
theorem hexEncode_ne_empty {bs : List UInt8} (h : bs ≠ []) : hexEncode bs ≠ "" := by
  obtain ⟨b, bs, rfl⟩ := List.exists_cons_of_ne_nil h
  intro hj
  have := congrArg String.toList hj
  simp only [hexEncode, List.map_cons, String.join_cons, String.toList_append, String.toList_empty,
    List.append_eq_nil_iff] at this
  exact hex02_ne_empty b (String.toList_eq_nil_iff.mp this.1)

/-- `{:02x?}` of a byte slice, as `[de, ad, 01]`. -/
def hexSliceDebug (bs : List UInt8) : String :=
  "[" ++ ", ".intercalate (bs.map hex02) ++ "]"

/-! ## Characters and strings -/

/-- `char::to_digit(radix)`: ASCII digits and letters, case-insensitive. -/
def toDigit (radix : Nat) (c : Char) : Option Nat :=
  let v :=
    if '0' ≤ c ∧ c ≤ '9' then c.toNat - '0'.toNat
    else if 'a' ≤ c ∧ c ≤ 'z' then c.toNat - 'a'.toNat + 10
    else if 'A' ≤ c ∧ c ≤ 'Z' then c.toNat - 'A'.toNat + 10
    else radix
  if v < radix then some v else none

theorem toDigit_digitChar_of_lt {radix d : Nat} (hr : radix ≤ 16) (hd : d < radix) :
    toDigit radix d.digitChar = some d := by
  have h16 : d < 16 := by omega
  delta toDigit
  interval_cases d <;> simp [Nat.digitChar, hd]

theorem toDigit_digitChar {d : Nat} (hd : d < 16) : toDigit 16 d.digitChar = some d :=
  toDigit_digitChar_of_lt le_rfl hd

/-- A char that is no ASCII digit or letter is a digit in no radix. -/
theorem toDigit_eq_none {radix : Nat} {c : Char} (hd : ¬('0' ≤ c ∧ c ≤ '9'))
    (hl : ¬('a' ≤ c ∧ c ≤ 'z')) (hu : ¬('A' ≤ c ∧ c ≤ 'Z')) : toDigit radix c = none := by
  delta toDigit
  simp only [hd, hl, hu, if_false, lt_irrefl]

theorem toDigit_zero {radix : Nat} (hradix : 0 < radix) : toDigit radix '0' = some 0 := by
  delta toDigit
  dsimp only
  rw [if_pos (show '0' ≤ '0' ∧ '0' ≤ '9' by decide), Nat.sub_self, if_pos hradix]

/-- `char::is_ascii_lowercase` is ASCII. -/
theorem toNat_lt_of_isLower {c : Char} (h : c.isLower = true) : c.toNat < 128 := by
  simp only [Char.isLower, Bool.and_eq_true, decide_eq_true_eq] at h
  have hle := UInt32.le_iff_toNat_le.mp h.2
  simp at hle
  omega

/-- `char::is_whitespace`: the Unicode `White_Space` property. -/
def isWhitespace (c : Char) : Bool :=
  let n := c.toNat
  (0x09 ≤ n && n ≤ 0x0D) || n == 0x20 || n == 0x85 || n == 0xA0 || n == 0x1680 ||
    (0x2000 ≤ n && n ≤ 0x200A) || n == 0x2028 || n == 0x2029 || n == 0x202F ||
    n == 0x205F || n == 0x3000

/-- `str::trim`: strip leading and trailing whitespace. -/
def trim (s : List Char) : List Char :=
  ((s.dropWhile isWhitespace).reverse.dropWhile isWhitespace).reverse

theorem trim_of_forall {s : List Char} (h : ∀ c ∈ s, isWhitespace c = false) : trim s = s := by
  have h1 : s.dropWhile isWhitespace = s := by
    cases s with
    | nil => rfl
    | cons c cs => simp [h c (by simp)]
  have h2 : s.reverse.dropWhile isWhitespace = s.reverse := by
    cases hr : s.reverse with
    | nil => rfl
    | cons c cs =>
      have hc : c ∈ s := by rw [← List.mem_reverse, hr]; simp
      simp [h c hc]
  simp [trim, h1, h2]

theorem isWhitespace_digitChar {d : Nat} (hd : d < 16) : isWhitespace d.digitChar = false := by
  interval_cases d <;> decide

/-! ## `from_str_radix` for unsigned integers -/

/-- The digit loop of `from_str_radix`: `acc * radix + digit` with checked
arithmetic against the type's maximum. -/
def digitsValue (radix max : Nat) : Nat → List Char → Option Nat
  | acc, [] => some acc
  | acc, c :: cs =>
    match toDigit radix c with
    | none => none
    | some d => if acc * radix + d ≤ max then digitsValue radix max (acc * radix + d) cs else none

@[simp] theorem digitsValue_nil (radix max acc : Nat) : digitsValue radix max acc [] = some acc := rfl

/-- One step of the digit loop: a non-digit stops it, a digit that would pass
the bound stops it, any other is taken in. -/
theorem digitsValue_cons (radix max acc : Nat) (c : Char) (cs : List Char) :
    digitsValue radix max acc (c :: cs) = (toDigit radix c).bind fun d =>
      if acc * radix + d ≤ max then digitsValue radix max (acc * radix + d) cs else none := by
  rw [digitsValue]
  cases toDigit radix c <;> rfl

/-- `uN::from_str_radix(s, radix)`: an empty string, a lone sign or any
non-digit fails; one leading `+` is accepted; `-` is a digit error for an
unsigned type. -/
def fromStrRadix (radix max : Nat) : List Char → Option Nat
  | [] => none
  | ['+'] => none
  | ['-'] => none
  | '+' :: rest => digitsValue radix max 0 rest
  | s => digitsValue radix max 0 s

theorem digitsValue_append (radix max acc : Nat) (xs ys : List Char) :
    digitsValue radix max acc (xs ++ ys) =
      (digitsValue radix max acc xs).bind (fun a => digitsValue radix max a ys) := by
  induction xs generalizing acc with
  | nil => rfl
  | cons c cs ih =>
    rw [List.cons_append, digitsValue_cons, digitsValue_cons]
    cases toDigit radix c with
    | none => rfl
    | some d =>
      simp only [Option.bind_some]
      split
      · exact ih _
      · rfl

/-- The digit loop never passes the bound it checks against. -/
theorem digitsValue_le {radix max acc v : Nat} {cs : List Char}
    (h : digitsValue radix max acc cs = some v) (hacc : acc ≤ max) : v ≤ max := by
  induction cs generalizing acc with
  | nil =>
    cases h
    exact hacc
  | cons c cs ih =>
    rw [digitsValue_cons] at h
    cases hd : toDigit radix c with
    | none => simp [hd] at h
    | some d =>
      simp only [hd, Option.bind_some] at h
      split_ifs at h with hle
      exact ih h hle

/-- A value read within one bound is read alike within a wider one. -/
theorem digitsValue_of_le {radix max max' acc v : Nat} {cs : List Char}
    (h : digitsValue radix max acc cs = some v) (hmax : max ≤ max') :
    digitsValue radix max' acc cs = some v := by
  induction cs generalizing acc with
  | nil => exact h
  | cons c cs ih =>
    -- the split on the digit is shared by the hypothesis and the goal
    rw [digitsValue_cons] at h ⊢
    cases hd : toDigit radix c with
    | none => simp [hd] at h
    | some d =>
      simp only [hd, Option.bind_some] at h ⊢
      split_ifs at h with hle
      rw [if_pos (hle.trans hmax)]
      exact ih h

/-- A leading zero adds nothing. -/
theorem digitsValue_zero_cons {radix max : Nat} (hradix : 0 < radix) (cs : List Char) :
    digitsValue radix max 0 ('0' :: cs) = digitsValue radix max 0 cs := by
  rw [digitsValue_cons, toDigit_zero hradix]
  simp

/-- Digits printed in radix `b ≤ 16` parse back (`n.to_string()` or
`format!("{:x}", n)`, then `from_str_radix(_, b)`), as long as the value fits. -/
theorem digitsValue_toDigits_of_le {b max n : Nat} (hb : 1 < b) (hb16 : b ≤ 16) (h : n ≤ max) :
    digitsValue b max 0 (Nat.toDigits b n) = some n := by
  induction n using Nat.base_induction b hb with
  | single m hm =>
    rw [Nat.toDigits_of_lt_base hm]
    simp [digitsValue_cons, toDigit_digitChar_of_lt hb16 hm, h]
  | digit m k hk hm ih =>
    have hm_le : m ≤ b * m := Nat.le_mul_of_pos_left m (by omega)
    rw [← Nat.toDigits_append_toDigits hb hm hk, digitsValue_append,
      ih (by omega), Nat.toDigits_of_lt_base hk]
    simp [digitsValue_cons, toDigit_digitChar_of_lt hb16 hk, Nat.mul_comm m b, h]

theorem mem_toDigits_of_lt {b n : Nat} (hb : 1 < b) {c : Char} (hc : c ∈ Nat.toDigits b n) :
    ∃ d, d < b ∧ c = d.digitChar := by
  induction n using Nat.base_induction b hb with
  | single m hm =>
    rw [Nat.toDigits_of_lt_base hm, List.mem_singleton] at hc
    exact ⟨m, hm, hc⟩
  | digit m k hk hm ih =>
    rw [← Nat.toDigits_append_toDigits hb hm hk, List.mem_append,
      Nat.toDigits_of_lt_base hk, List.mem_singleton] at hc
    rcases hc with hc | hc
    · exact ih hc
    · exact ⟨k, hk, hc⟩

theorem mem_toDigits_sixteen {n : Nat} {c : Char} (hc : c ∈ Nat.toDigits 16 n) :
    ∃ d, d < 16 ∧ c = d.digitChar :=
  mem_toDigits_of_lt (by norm_num) hc

theorem toDigits_ne_sign {b : Nat} (hb : 1 < b) (hb16 : b ≤ 16) (n : Nat) :
    ∀ c ∈ Nat.toDigits b n, c ≠ '+' ∧ c ≠ '-' := by
  intro c hc
  obtain ⟨d, hd, rfl⟩ := mem_toDigits_of_lt hb hc
  have h16 : d < 16 := by omega
  interval_cases d <;> decide

/-- Off a leading sign, `from_str_radix` is the digit loop from zero. -/
theorem fromStrRadix_of_head {radix max : Nat} {c : Char} {cs : List Char} (hplus : c ≠ '+')
    (hminus : c ≠ '-') : fromStrRadix radix max (c :: cs) = digitsValue radix max 0 (c :: cs) := by
  unfold fromStrRadix
  split <;> simp_all

/-- A non-empty run that the digit loop reads from zero is what
`from_str_radix` reads: its first char is a digit, so no sign. -/
theorem fromStrRadix_of_digitsValue {radix max v : Nat} {cs : List Char} (hne : cs ≠ [])
    (h : digitsValue radix max 0 cs = some v) : fromStrRadix radix max cs = some v := by
  obtain ⟨c, rest, rfl⟩ := List.exists_cons_of_ne_nil hne
  have hdigit : (toDigit radix c).isSome := by
    rw [digitsValue_cons] at h
    cases hd : toDigit radix c <;> simp_all
  have hplus : c ≠ '+' := by
    rintro rfl
    rw [toDigit_eq_none (by decide) (by decide) (by decide)] at hdigit
    simp at hdigit
  have hminus : c ≠ '-' := by
    rintro rfl
    rw [toDigit_eq_none (by decide) (by decide) (by decide)] at hdigit
    simp at hdigit
  rw [fromStrRadix_of_head hplus hminus]
  exact h

theorem fromStrRadix_toDigits_of_le {b max n : Nat} (hb : 1 < b) (hb16 : b ≤ 16) (h : n ≤ max) :
    fromStrRadix b max (Nat.toDigits b n) = some n :=
  fromStrRadix_of_digitsValue Nat.toDigits_ne_nil (digitsValue_toDigits_of_le hb hb16 h)

theorem fromStrRadix_toDigits {max n : Nat} (h : n ≤ max) :
    fromStrRadix 16 max (Nat.toDigits 16 n) = some n :=
  fromStrRadix_toDigits_of_le (by norm_num) le_rfl h

/-- `u64::to_string` then `str::parse::<u64>` gives the value back. -/
theorem fromStrRadix_toString {n : Nat} (h : n ≤ u64Max) :
    fromStrRadix 10 u64Max (toString n).toList = some n := by
  have hdigits : (toString n).toList = Nat.toDigits 10 n := by
    simp [Nat.toString_eq_repr, Nat.repr]
  rw [hdigits]
  exact fromStrRadix_toDigits_of_le (by norm_num) (by norm_num) h

theorem isWhitespace_toDigits (n : Nat) : ∀ c ∈ Nat.toDigits 16 n, isWhitespace c = false := by
  intro c hc
  obtain ⟨d, hd, rfl⟩ := mem_toDigits_sixteen hc
  exact isWhitespace_digitChar hd

/-! ## UTF-8 and `str` -/

/-- `str::as_bytes`: the UTF-8 bytes of a string. -/
def utf8Bytes (cs : List Char) : List UInt8 := cs.flatMap String.utf8EncodeChar

@[simp] theorem utf8Bytes_nil : utf8Bytes [] = [] := rfl

@[simp] theorem utf8Bytes_cons (c : Char) (cs : List Char) :
    utf8Bytes (c :: cs) = String.utf8EncodeChar c ++ utf8Bytes cs := rfl

@[simp] theorem utf8Bytes_append (xs ys : List Char) :
    utf8Bytes (xs ++ ys) = utf8Bytes xs ++ utf8Bytes ys := by
  simp [utf8Bytes]

/-- A UTF-8 continuation byte, `0b10xx_xxxx`. -/
def isContinuation (b : UInt8) : Bool := 0x80 ≤ b && b < 0xC0

/-- `str::is_char_boundary(k)` on the bytes `bs` of a `str`, for `k ≤ len`:
the end, or a byte that does not continue a char. -/
def isCharBoundary (bs : List UInt8) (k : Nat) : Bool :=
  match bs.drop k with
  | [] => true
  | b :: _ => !isContinuation b

/-- An ASCII char is its own byte. -/
theorem utf8EncodeChar_of_lt {c : Char} (h : c.toNat < 128) :
    String.utf8EncodeChar c = [UInt8.ofNat c.toNat] := by
  delta String.utf8EncodeChar
  exact if_pos (Nat.le_of_lt_succ h)

/-- `str::len` of ASCII text is its number of chars. -/
theorem length_utf8Bytes_of_ascii {cs : List Char} (h : ∀ c ∈ cs, c.toNat < 128) :
    (utf8Bytes cs).length = cs.length := by
  induction cs with
  | nil => rfl
  | cons c cs ih =>
    rw [utf8Bytes_cons, List.length_append, utf8EncodeChar_of_lt (h c List.mem_cons_self),
      ih (fun d hd => h d (List.mem_cons_of_mem c hd))]
    simp [Nat.add_comm]

/-- A char past ASCII is a lead byte of the upper half followed by at least
one continuation byte. -/
theorem utf8EncodeChar_of_ge {c : Char} (h : 128 ≤ c.toNat) :
    ∃ lead cont more, String.utf8EncodeChar c = lead :: cont :: more ∧ 128 ≤ lead.toNat ∧
      isContinuation cont = true := by
  have hc : ∀ v : Nat, isContinuation (UInt8.ofNat (v % 64 + 128)) = true := by
    intro v
    simp only [isContinuation, Bool.and_eq_true, decide_eq_true_eq, UInt8.le_iff_toNat_le,
      UInt8.lt_iff_toNat_lt, UInt8.toNat_ofNat', UInt8.toNat_ofNat]
    omega
  have hl : ∀ v k m : Nat, 128 ≤ m → v % k + m < 256 → 128 ≤ (UInt8.ofNat (v % k + m)).toNat := by
    intro v k m hm hlt
    rw [UInt8.toNat_ofNat', Nat.mod_eq_of_lt hlt]
    omega
  have hv : c.val.toNat = c.toNat := rfl
  delta String.utf8EncodeChar
  simp only [hv]
  split
  · omega
  split
  · exact ⟨_, _, [], rfl, hl _ _ _ (by omega) (by omega), hc _⟩
  split
  · exact ⟨_, _, _, rfl, hl _ _ _ (by omega) (by omega), hc _⟩
  · exact ⟨_, _, _, rfl, hl _ _ _ (by omega) (by omega), hc _⟩

/-- Only an ASCII char has an ASCII byte in its encoding, and then it is
that char's code. -/
theorem toNat_eq_of_mem_utf8EncodeChar {c : Char} {b : UInt8} (hb : b.toNat < 128)
    (h : b ∈ String.utf8EncodeChar c) : c.toNat = b.toNat := by
  by_cases hc : c.toNat < 128
  · rw [utf8EncodeChar_of_lt hc, List.mem_singleton] at h
    subst h
    rw [UInt8.toNat_ofNat', Nat.mod_eq_of_lt (by omega)]
  · -- every byte of a longer encoding has its top bit set
    exfalso
    have hv : c.val.toNat = c.toNat := rfl
    delta String.utf8EncodeChar at h
    simp only [hv] at h
    split at h
    · omega
    split at h
    · simp only [List.mem_cons, List.not_mem_nil, or_false] at h
      rcases h with rfl | rfl <;> rw [UInt8.toNat_ofNat'] at hb <;> omega
    split at h
    · simp only [List.mem_cons, List.not_mem_nil, or_false] at h
      rcases h with rfl | rfl | rfl <;> rw [UInt8.toNat_ofNat'] at hb <;> omega
    · simp only [List.mem_cons, List.not_mem_nil, or_false] at h
      rcases h with rfl | rfl | rfl | rfl <;> rw [UInt8.toNat_ofNat'] at hb <;> omega

/-- `str::split_once(c)`: the parts before and after the first `c`. -/
def splitOnce (c : Char) (s : List Char) : Option (List Char × List Char) :=
  if s.idxOf c < s.length then some (s.take (s.idxOf c), s.drop (s.idxOf c + 1)) else none

/-- `str::rsplit_once(c)`: the parts before and after the last `c`. -/
def rsplitOnce (c : Char) (s : List Char) : Option (List Char × List Char) :=
  (splitOnce c s.reverse).map fun parts => (parts.2.reverse, parts.1.reverse)

/-- `str::trim_matches(c)`: every leading and trailing `c` removed. -/
def trimMatches (c : Char) (s : List Char) : List Char :=
  ((s.dropWhile (· == c)).reverse.dropWhile (· == c)).reverse

/-! ## `String::from_utf8_lossy` -/

/-- The length of the sequence a byte starts (Unicode Table 3-7); `0` for a
byte that starts none. -/
def utf8Width (b : UInt8) : Nat :=
  if b < 0x80 then 1 else if b < 0xC2 then 0 else if b < 0xE0 then 2 else if b < 0xF0 then 3
  else if b < 0xF5 then 4 else 0

/-- The bytes that may follow lead byte `lead` first (Table 3-7). -/
def firstContinuationOk (lead b : UInt8) : Bool :=
  if lead = 0xE0 then 0xA0 ≤ b && b ≤ 0xBF
  else if lead = 0xED then 0x80 ≤ b && b ≤ 0x9F
  else if lead = 0xF0 then 0x90 ≤ b && b ≤ 0xBF
  else if lead = 0xF4 then 0x80 ≤ b && b ≤ 0x8F
  else isContinuation b

/-- How many of the next `n` bytes validly continue the sequence `lead`
starts: the maximal subpart. -/
def continuationRun (lead : UInt8) : Nat → Bool → List UInt8 → Nat
  | 0, _, _ => 0
  | _ + 1, _, [] => 0
  | n + 1, first, b :: rest =>
    if (if first then firstContinuationOk lead b else isContinuation b) then
      continuationRun lead n false rest + 1
    else 0

theorem continuationRun_le (lead : UInt8) : ∀ n first bs, continuationRun lead n first bs ≤ n
  | 0, _, _ => Nat.le_refl 0
  | _ + 1, _, [] => Nat.zero_le _
  | n + 1, first, b :: rest => by
    have := continuationRun_le lead n false rest
    unfold continuationRun
    split_ifs <;> omega

/-- The scalar value of a complete sequence. -/
def sequenceValue (lead : UInt8) (conts : List UInt8) : Nat :=
  conts.foldl (fun acc b => acc * 64 + b.toNat % 64)
    (lead.toNat % (if conts.length = 1 then 32 else if conts.length = 2 then 16 else 8))

/-- Decoding with `U+FFFD` for every maximal invalid subpart. -/
def utf8Lossy : List UInt8 → List Char
  | [] => []
  | b :: rest =>
    if utf8Width b = 1 then Char.ofNat b.toNat :: utf8Lossy rest
    else
      let k := continuationRun b (utf8Width b - 1) true rest
      if utf8Width b ≠ 0 ∧ k = utf8Width b - 1 then
        Char.ofNat (sequenceValue b (rest.take k)) :: utf8Lossy (rest.drop k)
      else '�' :: utf8Lossy (rest.drop k)
termination_by bs => bs.length
decreasing_by all_goals simp only [List.length_drop, List.length_cons]; omega

/-- `String::from_utf8_lossy`: valid UTF-8 as it is, else decoded with
replacement characters. -/
def fromUtf8Lossy (bytes : List UInt8) : List Char :=
  match bytes.toByteArray.utf8Decode? with
  | some cs => cs.toList
  | none => utf8Lossy bytes

theorem fromUtf8Lossy_utf8Bytes (cs : List Char) : fromUtf8Lossy (utf8Bytes cs) = cs := by
  have h : (utf8Bytes cs).toByteArray.utf8Decode? = some cs.toArray := List.utf8Decode?_utf8Encode
  simp [fromUtf8Lossy, h]

/-! ## `i64::from_str` -/

/-- `str::parse::<i64>`: an optional sign, then decimal digits, within
`i64`. -/
def i64FromStr : List Char → Option Int
  | [] => none
  | ['+'] => none
  | ['-'] => none
  | '-' :: rest => (digitsValue 10 (2 ^ 63) 0 rest).map fun n => -(n : Int)
  | '+' :: rest => (digitsValue 10 (2 ^ 63 - 1) 0 rest).map fun n => (n : Int)
  | s => (digitsValue 10 (2 ^ 63 - 1) 0 s).map fun n => (n : Int)

/-! ## `char::is_control`, `str::starts_with`, `str::strip_suffix`, `str::replace` -/

/-- `char::is_control`: the Unicode `Cc` category. -/
def isControl (c : Char) : Bool := c.toNat < 0x20 || (0x7F ≤ c.toNat && c.toNat < 0xA0)

/-- `str::trim_end_matches(c)`: every trailing `c` removed. -/
def trimEndMatches (c : Char) (s : List Char) : List Char :=
  ((s.reverse).dropWhile (· == c)).reverse

/-- `str::starts_with`. -/
def startsWith (s pre : String) : Bool := pre.toList.isPrefixOf s.toList

/-- `str::strip_suffix` of one char. -/
def stripSuffix (s : String) (c : Char) : Option String :=
  if s.toList.getLast? = some c then some (String.ofList s.toList.dropLast) else none

theorem startsWith_iff {s pre : String} : startsWith s pre = true ↔ pre.toList <+: s.toList :=
  List.isPrefixOf_iff_prefix

theorem stripSuffix_eq_some {s t : String} {c : Char} (h : stripSuffix s c = some t) :
    s.toList = t.toList ++ [c] := by
  unfold stripSuffix at h
  split at h
  · next hlast =>
    cases h
    rw [String.toList_ofList]
    exact (List.dropLast_append_getLast? c hlast).symm
  · cases h

/-- The scan of `str::replace`: at `skip = 0` an occurrence of `pat` becomes
`rep`, and the rest of the occurrence (`skip` more chars) is passed over. -/
def replaceScan (pat rep : List Char) : Nat → List Char → List Char
  | _, [] => []
  | skip + 1, _ :: cs => replaceScan pat rep skip cs
  | 0, c :: cs =>
    if pat ≠ [] ∧ pat <+: c :: cs then rep ++ replaceScan pat rep (pat.length - 1) cs
    else c :: replaceScan pat rep 0 cs

/-- `str::replace(pat, rep)` for a non-empty `pat`: the occurrences of `pat`,
found from the left without overlapping, each replaced by `rep`. -/
def strReplace (s pat rep : List Char) : List Char := replaceScan pat rep 0 s

/-- A pattern that does not occur leaves the string as it is. -/
theorem strReplace_eq_self {s pat rep : List Char} (h : ¬ pat <:+: s) :
    strReplace s pat rep = s := by
  induction s with
  | nil => rfl
  | cons c cs ih =>
    have hpre : ¬ (pat ≠ [] ∧ pat <+: c :: cs) := fun hp => h hp.2.isInfix
    have hrest : ¬ pat <:+: cs := fun hi => h (List.infix_cons hi)
    unfold strReplace at ih ⊢
    rw [replaceScan, if_neg hpre, ih hrest]

/-- `str::split(c)` gives one piece more than there are separators. -/
theorem length_splitOn {α : Type} [BEq α] [LawfulBEq α] (a : α) (l : List α) :
    (l.splitOn a).length = l.count a + 1 := by
  induction l with
  | nil => simp
  | cons x xs ih =>
    rw [List.splitOn_cons_eq_if_modifyHead]
    by_cases hx : x = a
    · subst hx
      simp [ih]
    · simp [hx, ih, List.count_cons_of_ne hx]

/-! ## `str::find` -/

/-- `str::find` with a string pattern: the first position at which `pat`
occurs in `s` (positions count chars). -/
def strFind : List Char → List Char → Option Nat
  | [], pat => if pat.isPrefixOf [] then some 0 else none
  | c :: cs, pat => if pat.isPrefixOf (c :: cs) then some 0 else (strFind cs pat).map (· + 1)

theorem strFind_at_start {s pat : List Char} (h : pat <+: s) : strFind s pat = some 0 := by
  cases s <;> exact if_pos (List.isPrefixOf_iff_prefix.mpr h)

theorem strFind_nil {pat : List Char} (h : pat ≠ []) : strFind [] pat = none := by
  exact if_neg (fun hp => h (List.prefix_nil.mp (List.isPrefixOf_iff_prefix.mp hp)))

theorem strFind_cons {c : Char} {cs pat : List Char} (h : ¬ pat <+: c :: cs) :
    strFind (c :: cs) pat = (strFind cs pat).map (· + 1) := by
  exact if_neg (fun hp => h (List.isPrefixOf_iff_prefix.mp hp))

theorem strFind_eq_none_iff {s pat : List Char} : strFind s pat = none ↔ ¬ pat <:+: s := by
  induction s with
  | nil =>
    rw [List.infix_nil]
    by_cases h : pat = []
    · subst h
      simp [strFind_at_start (List.nil_prefix)]
    · simp [strFind_nil h, h]
  | cons c cs ih =>
    rw [List.infix_cons_iff]
    by_cases h : pat <+: c :: cs
    · simp [strFind_at_start h, h]
    · simp [strFind_cons h, h, ih]

/-- A pattern that occurs first right after `seg` is found there. -/
theorem strFind_append {seg pat rest : List Char} (hpat : pat ≠ [])
    (hfirst : ¬ pat <:+: (seg ++ pat).dropLast) : strFind (seg ++ pat ++ rest) pat = some seg.length := by
  induction seg with
  | nil => exact strFind_at_start (List.prefix_append _ _)
  | cons c seg ih =>
    have hne : seg ++ pat ≠ [] := by simp [hpat]
    have hdrop : (c :: seg ++ pat).dropLast = c :: (seg ++ pat).dropLast :=
      List.dropLast_cons_of_ne_nil hne
    -- an occurrence at `c` would lie inside `(c :: seg ++ pat).dropLast`
    have hnot : ¬ pat <+: c :: (seg ++ pat ++ rest) := by
      intro hp
      have hpre : (c :: seg ++ pat).dropLast <+: c :: (seg ++ pat ++ rest) := by
        refine (List.dropLast_prefix _).trans ⟨rest, ?_⟩
        simp only [List.cons_append, List.append_assoc]
      have hlen : pat.length ≤ (c :: seg ++ pat).dropLast.length := by
        simp only [List.length_dropLast, List.length_append, List.length_cons]
        omega
      exact hfirst (List.prefix_of_prefix_length_le hp hpre hlen).isInfix
    have hfirst' : ¬ pat <:+: (seg ++ pat).dropLast := fun h =>
      hfirst (by rw [hdrop]; exact List.infix_cons h)
    rw [List.cons_append, List.cons_append, strFind_cons hnot, ih hfirst']
    rfl

/-- What a position `str::find` answers says: the text before it holds no
occurrence, and the pattern starts there. -/
theorem strFind_eq_some {s pat : List Char} {pos : Nat} (hpat : pat ≠ [])
    (h : strFind s pat = some pos) :
    ∃ seg rest, s = seg ++ pat ++ rest ∧ seg.length = pos ∧ ¬ pat <:+: (seg ++ pat).dropLast := by
  induction s generalizing pos with
  | nil =>
    rw [strFind_nil hpat] at h
    cases h
  | cons c cs ih =>
    by_cases hp : pat <+: c :: cs
    · -- found at the start: the pattern cannot occur in its own `dropLast`
      rw [strFind_at_start hp] at h
      cases h
      obtain ⟨rest, hrest⟩ := hp
      refine ⟨[], rest, hrest.symm, rfl, fun hi => ?_⟩
      have hlen := hi.length_le
      simp only [List.nil_append, List.length_dropLast] at hlen
      have : 0 < pat.length := List.length_pos_iff.mpr hpat
      omega
    · rw [strFind_cons hp] at h
      obtain ⟨pos', hpos', rfl⟩ := Option.map_eq_some_iff.mp h
      obtain ⟨seg, rest, rfl, rfl, hfirst⟩ := ih hpos'
      refine ⟨c :: seg, rest, rfl, rfl, fun hi => ?_⟩
      have hne : seg ++ pat ≠ [] := by simp [hpat]
      rw [List.cons_append, List.dropLast_cons_of_ne_nil hne, List.infix_cons_iff] at hi
      rcases hi with hpre | hinf
      · refine hp (hpre.trans ?_)
        rw [List.cons_prefix_cons]
        exact ⟨rfl, (List.dropLast_prefix _).trans (List.prefix_append _ _)⟩
      · exact hfirst hinf

/-! ## Collecting into `Option<Vec<_>>` -/

/-- `iter.map(g).collect::<Option<Vec<_>>>()` succeeds with the values
`f`'s collect gave wherever `g` reads what `f` reads, and each value keeps
what `g` promises of it. -/
theorem mapM_of_forall_some {α β : Type} {f g : α → Option β} {P : β → Prop}
    (hfg : ∀ x v, f x = some v → g x = some v ∧ P v) :
    ∀ {l : List α} {vs : List β}, l.mapM f = some vs → l.mapM g = some vs ∧ ∀ v ∈ vs, P v
  | [], vs, h => by
    simp at h
    subst h
    simp
  | x :: l, vs, h => by
    simp only [List.mapM_cons, Option.bind_eq_bind, Option.bind_eq_some_iff, Option.pure_def] at h
    obtain ⟨v, hv, ws, hws, hvs⟩ := h
    obtain rfl := Option.some.inj hvs
    obtain ⟨hg, hp⟩ := hfg x v hv
    obtain ⟨hgs, hps⟩ := mapM_of_forall_some hfg hws
    exact ⟨by simp [hg, hgs], List.forall_mem_cons.mpr ⟨hp, hps⟩⟩

/-! ## Comparing `str`s

`&str` compares its UTF-8 bytes lexicographically, which orders strings as
their lists of chars under the lexicographic order. -/

section Lex

variable {α : Type*} [LinearOrder α]

/-- A proper prefix sorts first. -/
theorem lt_of_prefix_of_ne {p q : List α} (h : p <+: q) (hne : p ≠ q) : p < q := by
  obtain ⟨t, rfl⟩ := h
  induction p with
  | nil =>
    cases t with
    | nil => exact absurd rfl hne
    | cons x t => exact List.nil_lt_cons x t
  | cons x p ih =>
    exact List.cons_lt_cons_iff.mpr (.inr ⟨rfl, ih (fun h => hne (by rw [List.cons_append, ← h]))⟩)

/-- A list below another that it is no prefix of stays below it whatever
follows it: the first difference decides. -/
theorem append_lt_of_lt_of_diverge {u a : List α} (h : u < a) (hp : ¬ u <+: a) (x : List α) :
    u ++ x < a := by
  induction u generalizing a with
  | nil => exact absurd (List.nil_prefix) hp
  | cons c u ih =>
    cases a with
    | nil => exact absurd h (List.not_lt_nil _)
    | cons d a =>
      rcases List.cons_lt_cons_iff.mp h with hcd | ⟨rfl, hua⟩
      · exact List.cons_lt_cons_iff.mpr (.inl hcd)
      · have hp' : ¬ u <+: a := fun hpre => hp (List.cons_prefix_cons.mpr ⟨rfl, hpre⟩)
        exact List.cons_lt_cons_iff.mpr (.inr ⟨rfl, ih hua hp'⟩)

/-- Two lists neither of which is a prefix of the other compare as their
first difference does, whatever follows the second. -/
theorem lt_append_iff_of_incomparable {r d : List α} (hrd : ¬ r <+: d) (hdr : ¬ d <+: r) (w : List α) :
    r < d ++ w ↔ r < d := by
  induction r generalizing d with
  | nil => exact absurd List.nil_prefix hrd
  | cons c r ih =>
    cases d with
    | nil => exact absurd List.nil_prefix hdr
    | cons e d =>
      rw [List.cons_append, List.cons_lt_cons_iff, List.cons_lt_cons_iff]
      by_cases hce : c = e
      · subst hce
        have hrd' : ¬ r <+: d := fun hpre => hrd (List.cons_prefix_cons.mpr ⟨rfl, hpre⟩)
        have hdr' : ¬ d <+: r := fun hpre => hdr (List.cons_prefix_cons.mpr ⟨rfl, hpre⟩)
        simp only [true_and, ih hrd' hdr']
      · simp [hce]

/-- A common first part does not change the order. -/
theorem append_lt_append_iff_left (p : List α) {x y : List α} : p ++ x < p ++ y ↔ x < y := by
  induction p with
  | nil => rfl
  | cons c p ih => simp [ih]

end Lex

section Prefix

variable {α : Type*}

/-- A prefix of `a ++ s` that is no prefix of `a` ends inside `s`. -/
theorem not_prefix_iff_of_prefix_append {p a s : List α} (hp : p <+: a ++ s) :
    ¬ p <+: a ↔ ∃ i, 0 < i ∧ i ≤ s.length ∧ p = a ++ s.take i := by
  constructor
  · intro hna
    have hlen : a.length < p.length := by
      by_contra hle
      exact hna (List.prefix_of_prefix_length_le hp (List.prefix_append a s) (not_lt.mp hle))
    have htake := List.prefix_iff_eq_take.mp hp
    rw [List.take_append, List.take_of_length_le hlen.le] at htake
    have hbound := hp.length_le
    rw [List.length_append] at hbound
    exact ⟨p.length - a.length, by omega, by omega, htake⟩
  · rintro ⟨i, hi, his, rfl⟩ hpre
    have hbound := hpre.length_le
    rw [List.length_append, List.length_take] at hbound
    omega

end Prefix

/-! ## `slice::chunks` -/

section Chunks

variable {α : Type*}

/-- The loop of `chunks(n)`, with a bound on the number of pieces. -/
def chunksFuel (n : Nat) : Nat → List α → List (List α)
  | 0, _ => []
  | fuel + 1, l => if l = [] then [] else l.take n :: chunksFuel n fuel (l.drop n)

/-- `slice::chunks(n)` for `n > 0`: consecutive pieces of `n` elements, the
last one shorter. -/
def chunks (n : Nat) (l : List α) : List (List α) := chunksFuel n l.length l

/-- A list whose length is a multiple of `w`'s, with every piece equal to
`w`, is `w` repeated. -/
theorem chunksFuel_all_eq_iff [DecidableEq α] {w : List α} (fuel : Nat)
    (l : List α) (hl : l.length ≤ fuel * w.length) :
    (l.length % w.length = 0 ∧ (chunksFuel w.length fuel l).all (· = w)) ↔
      ∃ j, l = (List.replicate j w).flatten := by
  induction fuel generalizing l with
  | zero =>
    have hnil : l = [] := List.eq_nil_of_length_eq_zero (by simpa using hl)
    subst hnil
    exact iff_of_true (by simp [chunksFuel]) ⟨0, rfl⟩
  | succ fuel ih =>
    by_cases hnil : l = []
    · subst hnil
      exact iff_of_true (by simp [chunksFuel]) ⟨0, rfl⟩
    rw [chunksFuel, if_neg hnil, List.all_cons, Bool.and_eq_true, decide_eq_true_eq]
    by_cases hlen : w.length ≤ l.length
    · -- a first piece of full length: the rest is the same question
      have hrest : (l.drop w.length).length ≤ fuel * w.length := by
        rw [List.length_drop]
        rw [Nat.succ_mul] at hl
        omega
      have hmod : l.length % w.length = (l.drop w.length).length % w.length := by
        rw [List.length_drop, ← Nat.sub_add_cancel hlen, Nat.add_mod_right, Nat.sub_add_cancel hlen]
      rw [hmod, ← and_assoc, and_comm (a := _ % _ = 0), and_assoc, ih _ hrest]
      constructor
      · rintro ⟨htake, j, hj⟩
        refine ⟨j + 1, ?_⟩
        rw [← List.take_append_drop w.length l, htake, hj, List.replicate_succ, List.flatten_cons]
      · rintro ⟨j, hj⟩
        cases j with
        | zero => exact absurd (by simpa using hj) hnil
        | succ j =>
          rw [List.replicate_succ, List.flatten_cons] at hj
          subst hj
          refine ⟨by simp, j, by simp⟩
    · -- a short list is no repetition of `w` and fails the first piece
      have htake : l.take w.length ≠ w := by
        intro h
        have := congrArg List.length h
        rw [List.length_take] at this
        omega
      refine iff_of_false (fun h => htake h.2.1) ?_
      rintro ⟨j, hj⟩
      cases j with
      | zero => exact hnil (by simpa using hj)
      | succ j =>
        have := congrArg List.length hj
        rw [List.replicate_succ, List.flatten_cons, List.length_append] at this
        omega

theorem chunks_all_eq_iff [DecidableEq α] {w : List α} (hw : 0 < w.length) (l : List α) :
    (l.length % w.length = 0 ∧ (chunks w.length l).all (· = w)) ↔ ∃ j, l = (List.replicate j w).flatten :=
  chunksFuel_all_eq_iff l.length l (Nat.le_mul_of_pos_right _ hw)

end Chunks

end RustStd
