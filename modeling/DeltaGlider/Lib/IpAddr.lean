import DeltaGlider.Lib.RustStd

/-!
# `std::net` addresses and their parser

`Ipv4Addr` (four octets), `Ipv6Addr` (eight segments) and `IpAddr`, with the
predicates of the Rust standard library that address policies call
(`is_loopback`, `is_private`, `is_multicast`, `to_ipv4_mapped`, …), the
`FromStr` parser of `core::net::parser`, and `ipnet`'s prefix networks.
Nothing here names a program.

The parser reads as the standard library's does: a number is the maximal run
of digits, rejected when it is too long, too large, or (for IPv4 octets) has a
leading zero; an IPv6 address is up to eight groups, at most one `::`, and an
IPv4 address in place of the last two groups; `IpAddr` tries IPv4 first and
the whole text must be read.

    Ipv6Addr.toIpv4Mapped (mapped a) = some a       (toIpv4Mapped_mapped)
    s.count '.' < 3 → ':' ∉ s → parseIpAddr s = none   (parseIpAddr_of_count)
-/

namespace StdNet

open RustStd

/-! ## Addresses -/

/-- `Ipv4Addr`, by its octets. -/
structure Ipv4Addr where
  a : UInt8
  b : UInt8
  c : UInt8
  d : UInt8
  deriving DecidableEq, Repr

/-- `Ipv6Addr`, by its segments. -/
structure Ipv6Addr where
  s0 : UInt16
  s1 : UInt16
  s2 : UInt16
  s3 : UInt16
  s4 : UInt16
  s5 : UInt16
  s6 : UInt16
  s7 : UInt16
  deriving DecidableEq, Repr

/-- `IpAddr`. -/
inductive IpAddr where
  | v4 (a : Ipv4Addr)
  | v6 (a : Ipv6Addr)
  deriving DecidableEq, Repr

namespace Ipv4Addr

/-- The address as a 32-bit number, first octet highest. -/
def toNat (ip : Ipv4Addr) : Nat :=
  ((ip.a.toNat * 256 + ip.b.toNat) * 256 + ip.c.toNat) * 256 + ip.d.toNat

def isLoopback (ip : Ipv4Addr) : Bool := ip.a == 127

def isPrivate (ip : Ipv4Addr) : Bool :=
  ip.a == 10 || (ip.a == 172 && 16 ≤ ip.b && ip.b ≤ 31) || (ip.a == 192 && ip.b == 168)

def isLinkLocal (ip : Ipv4Addr) : Bool := ip.a == 169 && ip.b == 254

def isBroadcast (ip : Ipv4Addr) : Bool := ip == ⟨255, 255, 255, 255⟩

def isDocumentation (ip : Ipv4Addr) : Bool :=
  (ip.a == 192 && ip.b == 0 && ip.c == 2) || (ip.a == 198 && ip.b == 51 && ip.c == 100) ||
    (ip.a == 203 && ip.b == 0 && ip.c == 113)

def isUnspecified (ip : Ipv4Addr) : Bool := ip == ⟨0, 0, 0, 0⟩

def isMulticast (ip : Ipv4Addr) : Bool := 224 ≤ ip.a && ip.a ≤ 239

end Ipv4Addr

namespace Ipv6Addr

/-- The address from its eight segments (zeros past the end). -/
def ofSegments (g : List Nat) : Ipv6Addr :=
  ⟨(g.getD 0 0).toUInt16, (g.getD 1 0).toUInt16, (g.getD 2 0).toUInt16, (g.getD 3 0).toUInt16,
    (g.getD 4 0).toUInt16, (g.getD 5 0).toUInt16, (g.getD 6 0).toUInt16, (g.getD 7 0).toUInt16⟩

/-- The address as a 128-bit number, first segment highest. -/
def toNat (ip : Ipv6Addr) : Nat :=
  [ip.s0, ip.s1, ip.s2, ip.s3, ip.s4, ip.s5, ip.s6, ip.s7].foldl (fun acc s => acc * 65536 + s.toNat) 0

def isLoopback (ip : Ipv6Addr) : Bool := ip == ⟨0, 0, 0, 0, 0, 0, 0, 1⟩

def isUnspecified (ip : Ipv6Addr) : Bool := ip == ⟨0, 0, 0, 0, 0, 0, 0, 0⟩

def isMulticast (ip : Ipv6Addr) : Bool := (ip.s0 &&& 0xff00) == 0xff00

/-- The IPv4 address a segment pair carries, high octets first. -/
def ipv4OfSegments (hi lo : UInt16) : Ipv4Addr :=
  ⟨(hi >>> 8).toUInt8, hi.toUInt8, (lo >>> 8).toUInt8, lo.toUInt8⟩

/-- `to_ipv4_mapped`: the IPv4 address of `::ffff:a.b.c.d`. -/
def toIpv4Mapped (ip : Ipv6Addr) : Option Ipv4Addr :=
  if ip.s0 = 0 ∧ ip.s1 = 0 ∧ ip.s2 = 0 ∧ ip.s3 = 0 ∧ ip.s4 = 0 ∧ ip.s5 = 0xffff then
    some (ipv4OfSegments ip.s6 ip.s7)
  else none

/-- `Ipv4Addr::to_ipv6_mapped`: `::ffff:a.b.c.d`. -/
def mapped (v4 : Ipv4Addr) : Ipv6Addr :=
  ⟨0, 0, 0, 0, 0, 0xffff, v4.a.toUInt16 * 256 + v4.b.toUInt16, v4.c.toUInt16 * 256 + v4.d.toUInt16⟩

/-- The high octet of a segment built from two octets. -/
theorem segment_high (a b : UInt8) : ((a.toUInt16 * 256 + b.toUInt16) >>> 8).toUInt8 = a := by
  apply UInt8.toNat_inj.mp
  have ha := a.toNat_lt
  have hb := b.toNat_lt
  simp [UInt16.toNat_shiftRight, UInt16.toNat_add, UInt16.toNat_mul, Nat.shiftRight_eq_div_pow]
  omega

/-- The low octet of a segment built from two octets. -/
theorem segment_low (a b : UInt8) : (a.toUInt16 * 256 + b.toUInt16).toUInt8 = b := by
  apply UInt8.toNat_inj.mp
  simp

/-- `to_ipv4_mapped` reads back the address `to_ipv6_mapped` wrote. -/
@[simp] theorem toIpv4Mapped_mapped (v4 : Ipv4Addr) : (mapped v4).toIpv4Mapped = some v4 := by
  simp only [mapped, toIpv4Mapped, ipv4OfSegments, segment_high, segment_low]
  simp

end Ipv6Addr

/-! ## Prefix networks -/

/-- A prefix network as `ipnet::IpNet` holds one: an address and a prefix
length no longer than the address.  Code that calls the crate takes its
`contains` as a parameter; this one and `IpNet.contains` are what concrete
runs use. -/
inductive IpNet where
  | v4 (addr : Ipv4Addr) (prefixLen : Fin 33)
  | v6 (addr : Ipv6Addr) (prefixLen : Fin 129)
  deriving DecidableEq, Repr

/-- `IpNet::contains`: an address of the same family that agrees with the
network's address on the first `prefixLen` bits (between `network()` and
`broadcast()`). -/
def IpNet.contains : IpNet → IpAddr → Bool
  | .v4 addr len, .v4 ip => ip.toNat / 2 ^ (32 - len.val) == addr.toNat / 2 ^ (32 - len.val)
  | .v6 addr len, .v6 ip => ip.toNat / 2 ^ (128 - len.val) == addr.toNat / 2 ^ (128 - len.val)
  | _, _ => false

/-! ## The parser of `core::net::parser` -/

/-- The maximal run of `radix` digits at the front of the text, and the rest. -/
def digitRun (radix : Nat) : List Char → List Nat × List Char
  | [] => ([], [])
  | c :: cs =>
    match toDigit radix c with
    | some d => ((digitRun radix cs).1.cons d, (digitRun radix cs).2)
    | none => ([], c :: cs)

/-- `read_number`: at least one and at most `maxDigits` digits with a value
below `bound`, and no leading zero before another digit unless
`allowZeroPrefix`. -/
def readNumber (radix maxDigits bound : Nat) (allowZeroPrefix : Bool) (s : List Char) :
    Option (Nat × List Char) :=
  let run := digitRun radix s
  let value := run.1.foldl (fun acc d => acc * radix + d) 0
  if run.1 = [] ∨ maxDigits < run.1.length ∨ bound ≤ value ∨
      (allowZeroPrefix = false ∧ run.1.head? = some 0 ∧ 1 < run.1.length) then none
  else some (value, run.2)

/-- `read_separator`: the separator first unless at the first item, then the
item. -/
def readSeparated {α : Type} (sep : Char) (index : Nat) (inner : List Char → Option (α × List Char))
    (s : List Char) : Option (α × List Char) :=
  if index = 0 then inner s
  else
    match s with
    | c :: rest => if c = sep then inner rest else none
    | [] => none

/-- `read_ipv4_addr`: four decimal octets separated by dots. -/
def readIpv4Addr (s : List Char) : Option (Ipv4Addr × List Char) := do
  let (a, s) ← readSeparated '.' 0 (readNumber 10 3 256 false) s
  let (b, s) ← readSeparated '.' 1 (readNumber 10 3 256 false) s
  let (c, s) ← readSeparated '.' 2 (readNumber 10 3 256 false) s
  let (d, s) ← readSeparated '.' 3 (readNumber 10 3 256 false) s
  some (⟨a.toUInt8, b.toUInt8, c.toUInt8, d.toUInt8⟩, s)

/-- The two segments an embedded IPv4 address fills. -/
def ipv4Groups (v4 : Ipv4Addr) : List Nat :=
  [v4.a.toNat * 256 + v4.b.toNat, v4.c.toNat * 256 + v4.d.toNat]

/-- `read_groups` from group `i` on, with `n` groups left of `limit`: an
IPv4 address when at least two groups are left, else a hex group; it stops
at the first that does not parse.  Answers the groups, whether the last was
an IPv4 address, and the rest of the text. -/
def readGroups (limit : Nat) : Nat → Nat → List Char → List Nat × Bool × List Char
  | 0, _, s => ([], false, s)
  | n + 1, i, s =>
    match (if i + 1 < limit then readSeparated ':' i readIpv4Addr s else none) with
    | some (v4, rest) => (ipv4Groups v4, true, rest)
    | none =>
      match readSeparated ':' i (readNumber 16 4 65536 true) s with
      | some (g, rest) =>
        ((readGroups limit n (i + 1) rest).1.cons g, (readGroups limit n (i + 1) rest).2)
      | none => ([], false, s)

/-- `read_ipv6_addr`: eight groups, or a head and a tail around `::`, which
stands for the zero groups between them. -/
def readIpv6Addr (s : List Char) : Option (Ipv6Addr × List Char) :=
  let head := readGroups 8 8 0 s
  if head.1.length = 8 then some (Ipv6Addr.ofSegments head.1, head.2.2)
  else if head.2.1 then none
  else
    match head.2.2 with
    | ':' :: ':' :: rest =>
      let limit := 8 - (head.1.length + 1)
      let tail := readGroups limit limit 0 rest
      some (Ipv6Addr.ofSegments (head.1 ++ List.replicate (8 - head.1.length - tail.1.length) 0 ++ tail.1),
        tail.2.2)
    | _ => none

/-- `IpAddr::from_str`: an IPv4 address, else an IPv6 one, reading the whole
text. -/
def parseIpAddr (s : List Char) : Option IpAddr :=
  match readIpv4Addr s with
  | some (a, rest) => if rest = [] then some (.v4 a) else none
  | none =>
    match readIpv6Addr s with
    | some (a, rest) => if rest = [] then some (.v6 a) else none
    | none => none

example : parseIpAddr "169.254.169.254".toList = some (.v4 ⟨169, 254, 169, 254⟩) := by decide
example : parseIpAddr "64:ff9b::a9fe:a9fe".toList = some (.v6 ⟨0x64, 0xff9b, 0, 0, 0, 0, 0xa9fe, 0xa9fe⟩) := by
  decide
example : parseIpAddr "::ffff:127.0.0.1".toList = some (.v6 ⟨0, 0, 0, 0, 0, 0xffff, 0x7f00, 1⟩) := by decide
example : parseIpAddr "01.2.3.4".toList = none := by decide

/-! ## Texts that are no address

What a read leaves is an unchanged suffix of the text, and a digit run reads
no dot; so an IPv4 address reads three dots, and without a colon the IPv6
reader stops after its first group. -/

theorem digitRun_suffix (radix : Nat) (s : List Char) : (digitRun radix s).2 <:+ s := by
  induction s with
  | nil => exact List.suffix_refl _
  | cons c cs ih =>
    unfold digitRun
    split
    · exact ih.trans (List.suffix_cons c cs)
    · exact List.suffix_refl _

/-- A char that is no digit is left to the rest by a digit run. -/
theorem count_digitRun {radix : Nat} {c : Char} (hc : toDigit radix c = none) (s : List Char) :
    (digitRun radix s).2.count c = s.count c := by
  induction s with
  | nil => rfl
  | cons d ds ih =>
    unfold digitRun
    split
    · rename_i e he
      have hne : d ≠ c := by
        rintro rfl
        rw [hc] at he
        cases he
      rw [List.count_cons_of_ne hne]
      exact ih
    · rfl

theorem readNumber_eq_some {radix maxDigits bound v : Nat} {z : Bool} {s rest : List Char}
    (h : readNumber radix maxDigits bound z s = some (v, rest)) : rest = (digitRun radix s).2 := by
  unfold readNumber at h
  dsimp only at h
  split_ifs at h
  simp only [Option.some.injEq, Prod.mk.injEq] at h
  exact h.2.symm

theorem readNumber_suffix {radix maxDigits bound v : Nat} {z : Bool} {s rest : List Char}
    (h : readNumber radix maxDigits bound z s = some (v, rest)) : rest <:+ s := by
  rw [readNumber_eq_some h]
  exact digitRun_suffix radix s

@[simp] theorem readSeparated_zero {α : Type} (sep : Char) (inner : List Char → Option (α × List Char))
    (s : List Char) : readSeparated sep 0 inner s = inner s := rfl

theorem readSeparated_of_not_mem {α : Type} {sep : Char} {index : Nat}
    {inner : List Char → Option (α × List Char)} {s : List Char} (hsep : sep ∉ s) (hindex : index ≠ 0) :
    readSeparated sep index inner s = none := by
  unfold readSeparated
  rw [if_neg hindex]
  cases s with
  | nil => rfl
  | cons c rest =>
    have hc : c ≠ sep := fun h => hsep (h ▸ List.mem_cons_self)
    simp [hc]

/-- An octet after the first reads one dot and a run of digits. -/
theorem count_readSeparated_octet {index a : Nat} {s rest : List Char} (hindex : index ≠ 0)
    (h : readSeparated '.' index (readNumber 10 3 256 false) s = some (a, rest)) :
    s.count '.' = rest.count '.' + 1 := by
  unfold readSeparated at h
  rw [if_neg hindex] at h
  cases s with
  | nil => cases h
  | cons c cs =>
    dsimp only at h
    split_ifs at h with hc
    subst hc
    rw [List.count_cons_self, readNumber_eq_some h,
      count_digitRun (toDigit_eq_none (by decide) (by decide) (by decide))]

/-- An IPv4 address reads three dots. -/
theorem count_readIpv4Addr {s rest : List Char} {a : Ipv4Addr} (h : readIpv4Addr s = some (a, rest)) :
    s.count '.' = rest.count '.' + 3 := by
  simp only [readIpv4Addr, readSeparated_zero, Option.bind_eq_bind, Option.bind_eq_some_iff] at h
  obtain ⟨⟨_, r1⟩, h1, ⟨_, r2⟩, h2, ⟨_, r3⟩, h3, ⟨_, r4⟩, h4, heq⟩ := h
  dsimp only at h2 h3 h4 heq
  have hr4 : r4 = rest := (Prod.mk.inj (Option.some.inj heq)).2
  have c1 : r1.count '.' = s.count '.' := by
    rw [readNumber_eq_some h1, count_digitRun (toDigit_eq_none (by decide) (by decide) (by decide))]
  have c2 := count_readSeparated_octet (by decide) h2
  have c3 := count_readSeparated_octet (by decide) h3
  have c4 := count_readSeparated_octet (by decide) h4
  subst hr4
  omega

theorem readIpv4Addr_of_count {s : List Char} (h : s.count '.' < 3) : readIpv4Addr s = none := by
  cases hr : readIpv4Addr s with
  | none => rfl
  | some p =>
    have := count_readIpv4Addr hr
    omega

theorem readGroups_of_not_mem {limit n i : Nat} {s : List Char} (h : ':' ∉ s) (hi : i ≠ 0) :
    readGroups limit n i s = ([], false, s) := by
  cases n with
  | zero => rfl
  | succ n => simp [readGroups, readSeparated_of_not_mem h hi]

/-- Without a colon the groups stop after the first: an IPv4 address, which
ends the groups, or one hex group, after which no colon is left. -/
theorem readGroups_zero_of_not_mem (limit n : Nat) {s : List Char} (h6 : ':' ∉ s) :
    (readGroups limit n 0 s).1.length ≤ 2 ∧
      ((readGroups limit n 0 s).2.1 = true ∨ ':' ∉ (readGroups limit n 0 s).2.2) := by
  cases n with
  | zero => exact ⟨by simp [readGroups], .inr h6⟩
  | succ n =>
    unfold readGroups
    split
    · simp [ipv4Groups]
    · split
      · rename_i g rest hg
        have hrest : ':' ∉ rest := fun hm => h6 ((readNumber_suffix hg).subset hm)
        simp [readGroups_of_not_mem hrest one_ne_zero, hrest]
      · simp [h6]

theorem readIpv6Addr_of_not_mem {s : List Char} (h6 : ':' ∉ s) : readIpv6Addr s = none := by
  obtain ⟨hlen, hrest⟩ := readGroups_zero_of_not_mem 8 8 h6
  unfold readIpv6Addr
  dsimp only
  rw [if_neg (by omega)]
  split_ifs with hv4
  · rfl
  · -- no colon is left, so no "::" follows the head
    split
    · rename_i rest heq
      exact absurd (heq ▸ List.mem_cons_self) (hrest.resolve_left hv4)
    · rfl

/-- A text with fewer than three dots and no colon is no address. -/
theorem parseIpAddr_of_count {s : List Char} (h4 : s.count '.' < 3) (h6 : ':' ∉ s) :
    parseIpAddr s = none := by
  unfold parseIpAddr
  rw [readIpv4Addr_of_count h4, readIpv6Addr_of_not_mem h6]

end StdNet
