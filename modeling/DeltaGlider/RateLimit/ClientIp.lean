import DeltaGlider.Lib.IpAddr

/-!
# Client-IP resolution behind proxies

`resolve_client_ip`, `header_str`, `header_ip`, `first_xff` and `normalize_ip`
of `src/rate_limiter.rs`.  What they call of the `http` and `ipnet` crates is
a parameter (`ResolverLib`): `HeaderMap::get` on a header map of any type,
`HeaderValue::to_str`, and `IpNet::contains` on a network of any type.  The
results below rest on one law, that `to_str` succeeds exactly when every byte
is visible ASCII or a tab (`ResolverLib.ToStrVisible`, as the crate
documents it).

Without trust, or from a peer outside the trusted networks, the headers are
ignored; from a trusted peer the forwarded chain is walked right to left and
its rightmost untrusted hop is the client:

    trust = false ∨ peer untrusted → resolve = peer.map normalize_ip      (resolveClientIp_peer_only)
    XFF = A ++ [c] ++ T in visible ASCII, T trusted, c untrusted
      → resolve = normalize_ip c                                         (resolveClientIp_chain)
    normalize_ip (::ffff:a) = a,  normalize_ip ∘ normalize_ip = normalize_ip

A prefix `A` with a byte that is not visible ASCII makes `to_str` fail, so the
whole chain is dropped and the attacker's `X-Real-IP` is taken instead
(`obs_text_xff_spoofed`).
-/

namespace DeltaGlider.RateLimit

open StdNet RustStd

/-! ## The libraries -/

/-- What the resolver calls of the `http` and `ipnet` crates, over their
header-map type `H` and network type `N`: `HeaderMap::get` (the raw bytes of
a value), `HeaderValue::to_str` and `IpNet::contains`. -/
structure ResolverLib (H N : Type) where
  headerGet : H → String → Option (List UInt8)
  toStr : List UInt8 → Option (List Char)
  contains : N → IpAddr → Bool

/-- `is_visible_ascii` of the `http` crate. -/
def isVisibleAscii (b : UInt8) : Bool := (32 ≤ b && b < 127) || b == 9

/-- `HeaderValue::to_str` as the `http` crate documents it: the value as text
when every byte is visible ASCII, an error otherwise. -/
def headerToStr (value : List UInt8) : Option (List Char) :=
  if value.all isVisibleAscii then some (value.map fun b => Char.ofNat b.toNat) else none

/-- A library whose `to_str` behaves as documented. -/
def ResolverLib.ToStrVisible {H N : Type} (lib : ResolverLib H N) : Prop :=
  ∀ value, lib.toStr value = headerToStr value

/-- `HeaderMap::get` on a map given by its entries in order: the first value
under the name. -/
def listHeaderGet (headers : List (String × List UInt8)) (name : String) : Option (List UInt8) :=
  (headers.find? fun h => h.1 == name).map (·.2)

/-! ## Algorithm -/

section Algorithm

variable {H N : Type} (lib : ResolverLib H N)

/-- `header_str`. -/
def headerStr (headers : H) (name : String) : Option (List Char) :=
  (lib.headerGet headers name).bind lib.toStr

/-- `header_ip`: the trimmed value parsed as an address. -/
def headerIp (headers : H) (name : String) : Option IpAddr :=
  (headerStr lib headers name).bind fun s => parseIpAddr (trim s)

/-- `first_xff`: the first hop of `X-Forwarded-For`, parsed. -/
def firstXff (headers : H) : Option IpAddr :=
  (headerStr lib headers "x-forwarded-for").bind fun xff =>
    (xff.splitOn ',').head?.bind fun hop => parseIpAddr (trim hop)

/-- `normalize_ip`: an IPv4-mapped IPv6 address becomes its IPv4 address. -/
def normalizeIp : IpAddr → IpAddr
  | .v6 v6 =>
    match v6.toIpv4Mapped with
    | some v4 => .v4 v4
    | none => .v6 v6
  | .v4 v4 => .v4 v4

/-- The `peer_trusted` closure: inside one of the trusted networks. -/
def peerTrusted (trustedCidrs : List N) (ip : IpAddr) : Bool :=
  trustedCidrs.any fun n => lib.contains n ip

/-- The right-to-left walk of the forwarded chain (`rsplit(',')`): the first
hop from the right that parses and is not trusted. -/
def xffClient (trustedCidrs : List N) (xff : List Char) : Option IpAddr :=
  ((xff.splitOn ',').reverse.filterMap fun hop => parseIpAddr (trim hop)).find? fun ip =>
    !peerTrusted lib trustedCidrs ip

/-- `resolve_client_ip`. -/
def resolveClientIp (headers : H) (peerIp : Option IpAddr) (trust : Bool) (trustedCidrs : List N) :
    Option IpAddr :=
  if !trust then peerIp.map normalizeIp
  else if trustedCidrs.isEmpty then
    -- the legacy path: first hop, then `X-Real-IP`, then the peer
    match (firstXff lib headers).or (headerIp lib headers "x-real-ip") with
    | some ip => some (normalizeIp ip)
    | none => peerIp.map normalizeIp
  else
    match peerIp with
    | some p =>
      if peerTrusted lib trustedCidrs p then
        match (headerStr lib headers "x-forwarded-for").bind (xffClient lib trustedCidrs) with
        | some ip => some (normalizeIp ip)
        | none =>
          match headerIp lib headers "x-real-ip" with
          | some ip => some (normalizeIp ip)
          | none => some (normalizeIp p)
      else some (normalizeIp p)
    | none => none

end Algorithm

/-! ## Lemmas -/

variable {H N : Type} {lib : ResolverLib H N}

theorem headerStr_eq (headers : H) (name : String) :
    headerStr lib headers name = (lib.headerGet headers name).bind lib.toStr := rfl

theorem headerIp_eq (headers : H) (name : String) :
    headerIp lib headers name = (headerStr lib headers name).bind fun s => parseIpAddr (trim s) := rfl

@[simp] theorem normalizeIp_v4 (a : Ipv4Addr) : normalizeIp (.v4 a) = .v4 a := rfl

/-- `normalize_ip` of an IPv6 address: the IPv4 address it maps, if any. -/
theorem normalizeIp_v6 (v6 : Ipv6Addr) :
    normalizeIp (.v6 v6) = (v6.toIpv4Mapped.map IpAddr.v4).getD (.v6 v6) := by
  unfold normalizeIp
  dsimp only
  cases v6.toIpv4Mapped <;> rfl

/-- `normalize_ip` turns an IPv4-mapped address into its IPv4 address. -/
@[simp] theorem normalizeIp_mapped (a : Ipv4Addr) : normalizeIp (.v6 (Ipv6Addr.mapped a)) = .v4 a := by
  rw [normalizeIp_v6, Ipv6Addr.toIpv4Mapped_mapped]
  rfl

/-- `normalize_ip` never answers a mapped address. -/
theorem normalizeIp_not_mapped (ip : IpAddr) (v6 : Ipv6Addr) (h : normalizeIp ip = .v6 v6) :
    v6.toIpv4Mapped = none := by
  cases ip with
  | v4 a => cases h
  | v6 w =>
    cases hw : w.toIpv4Mapped with
    | some a =>
      rw [normalizeIp_v6, hw] at h
      cases h
    | none =>
      rw [normalizeIp_v6, hw] at h
      cases h
      exact hw

/-- `normalize_ip` is idempotent. -/
theorem normalizeIp_normalizeIp (ip : IpAddr) : normalizeIp (normalizeIp ip) = normalizeIp ip := by
  cases h : normalizeIp ip with
  | v4 a => rfl
  | v6 v6 =>
    rw [normalizeIp_v6, normalizeIp_not_mapped ip v6 h]
    rfl

/-- Without trust, or from a peer outside the trusted networks, the answer is
the peer's, whatever the headers hold. -/
theorem resolveClientIp_peer_only {headers : H} {peerIp : Option IpAddr}
    {trust : Bool} {trustedCidrs : List N}
    (h : trust = false ∨ (trustedCidrs ≠ [] ∧ ∀ p, peerIp = some p → peerTrusted lib trustedCidrs p = false)) :
    resolveClientIp lib headers peerIp trust trustedCidrs = peerIp.map normalizeIp := by
  rcases h with rfl | ⟨hne, huntrusted⟩
  · rfl
  · have hcidrs : trustedCidrs.isEmpty = false := by simpa using hne
    cases peerIp with
    | none => simp [resolveClientIp, hcidrs]
    | some p => simp [resolveClientIp, hcidrs, huntrusted p rfl]

/-- The byte of a character below 128. -/
def asciiByte (ch : Char) : UInt8 := UInt8.ofNat ch.toNat

/-- A visible-ASCII character: its byte passes `is_visible_ascii`. -/
def VisibleChar (ch : Char) : Prop := ch.toNat = 9 ∨ (32 ≤ ch.toNat ∧ ch.toNat < 127)

/-- From a trusted peer, with trusted networks configured: the client the
forwarded chain names, else `X-Real-IP`, else the peer, normalised. -/
theorem resolveClientIp_trusted {headers : H} {p : IpAddr} {trustedCidrs : List N}
    (hne : trustedCidrs ≠ []) (hpeer : peerTrusted lib trustedCidrs p = true) :
    resolveClientIp lib headers (some p) true trustedCidrs =
      some (normalizeIp ((((headerStr lib headers "x-forwarded-for").bind (xffClient lib trustedCidrs)).or
        (headerIp lib headers "x-real-ip")).getD p)) := by
  have hcidrs : trustedCidrs.isEmpty = false := by simpa using hne
  unfold resolveClientIp
  rw [if_neg (by decide), if_neg (by simp [hcidrs])]
  dsimp only
  rw [if_pos hpeer]
  cases (headerStr lib headers "x-forwarded-for").bind (xffClient lib trustedCidrs) <;>
    cases headerIp lib headers "x-real-ip" <;> rfl

/-- `to_str` reads visible-ASCII text back from its bytes. -/
theorem headerToStr_ascii {s : List Char} (h : ∀ ch ∈ s, VisibleChar ch) :
    headerToStr (s.map asciiByte) = some s := by
  have hbyte : ∀ ch ∈ s, (asciiByte ch).toNat = ch.toNat := by
    intro ch hch
    have hlt : ch.toNat < 256 := by rcases h ch hch with h9 | ⟨-, h127⟩ <;> omega
    simp [asciiByte, Nat.mod_eq_of_lt hlt]
  have hall : (s.map asciiByte).all isVisibleAscii = true := by
    simp only [List.all_map, List.all_eq_true, Function.comp_apply]
    intro ch hch
    have hb := hbyte ch hch
    simp only [isVisibleAscii, Bool.or_eq_true, Bool.and_eq_true, decide_eq_true_eq, beq_iff_eq]
    rcases h ch hch with h9 | ⟨h32, h127⟩
    · right
      exact UInt8.toNat_inj.mp (by rw [hb, h9]; rfl)
    · left
      exact ⟨UInt8.le_iff_toNat_le.mpr (by rw [hb]; exact h32), UInt8.lt_iff_toNat_lt.mpr (by rw [hb]; exact h127)⟩
  simp only [headerToStr, hall, if_true, List.map_map, Option.some.injEq]
  conv => rhs; rw [← List.map_id s]
  apply List.map_congr_left
  intro ch hch
  simp only [Function.comp_apply, hbyte ch hch, Char.ofNat_toNat, id]

/-- A character of a list joined by `sep` is `sep` or a character of one of
the pieces. -/
theorem mem_intercalate_singleton {α : Type} {sep ch : α} {pieces : List (List α)}
    (h : ch ∈ [sep].intercalate pieces) : ch = sep ∨ ∃ piece ∈ pieces, ch ∈ piece := by
  induction pieces with
  | nil => simp at h
  | cons piece rest ih =>
    cases rest with
    | nil => exact .inr ⟨piece, List.mem_singleton_self _, by simpa using h⟩
    | cons next rest =>
      rw [List.intercalate_cons_cons, List.mem_append, List.mem_append, List.mem_singleton] at h
      rcases h with (hpiece | hsep) | hrest
      · exact .inr ⟨piece, List.mem_cons_self, hpiece⟩
      · exact .inl hsep
      · rcases ih hrest with hsep | ⟨piece', hmem, hch⟩
        · exact .inl hsep
        · exact .inr ⟨piece', List.mem_cons_of_mem _ hmem, hch⟩

/-- The walk over `A ++ [c] ++ T`, with every hop of `T` a trusted address and
`c` an untrusted one, stops at `c`, whatever `A` holds. -/
theorem xffClient_chain {trustedCidrs : List N} {A T : List (List Char)} {c : List Char} {ip : IpAddr}
    (hcomma : ∀ hop ∈ A ++ c :: T, ',' ∉ hop) (hc : parseIpAddr (trim c) = some ip)
    (huntrusted : peerTrusted lib trustedCidrs ip = false)
    (hT : ∀ t ∈ T, ∃ ipt, parseIpAddr (trim t) = some ipt ∧ peerTrusted lib trustedCidrs ipt = true) :
    xffClient lib trustedCidrs ([','].intercalate (A ++ c :: T)) = some ip := by
  have hsplit : ([','].intercalate (A ++ c :: T)).splitOn ',' = A ++ c :: T :=
    List.splitOn_intercalate ',' hcomma (by simp)
  -- the trusted tail is passed over
  have htail : ((T.reverse.filterMap fun hop => parseIpAddr (trim hop)).find? fun ip =>
      !peerTrusted lib trustedCidrs ip) = none := by
    rw [List.find?_eq_none]
    intro ipt hipt
    obtain ⟨t, ht, hparse⟩ := List.mem_filterMap.mp hipt
    obtain ⟨ipt', hparse', htrusted⟩ := hT t (List.mem_reverse.mp ht)
    rw [hparse] at hparse'
    cases hparse'
    simp [htrusted]
  unfold xffClient
  rw [hsplit, List.reverse_append, List.reverse_cons, List.append_assoc, List.filterMap_append,
    List.find?_append, htail, Option.none_or]
  simp [hc, huntrusted]

/-- From a trusted peer, with a visible-ASCII `X-Forwarded-For` of hops
`A ++ [c] ++ T` where every hop of `T` is trusted and `c` is not, the client
is `c`, normalised, whatever `A` holds. -/
theorem resolveClientIp_chain (hlib : lib.ToStrVisible) {headers : H} {p : IpAddr} {trustedCidrs : List N}
    {A T : List (List Char)} {c : List Char} {ip : IpAddr} (hne : trustedCidrs ≠ [])
    (hpeer : peerTrusted lib trustedCidrs p = true)
    (hxff : lib.headerGet headers "x-forwarded-for" = some (([','].intercalate (A ++ c :: T)).map asciiByte))
    (hvisible : ∀ hop ∈ A ++ c :: T, ∀ ch ∈ hop, VisibleChar ch ∧ ch ≠ ',')
    (hc : parseIpAddr (trim c) = some ip) (huntrusted : peerTrusted lib trustedCidrs ip = false)
    (hT : ∀ t ∈ T, ∃ ipt, parseIpAddr (trim t) = some ipt ∧ peerTrusted lib trustedCidrs ipt = true) :
    resolveClientIp lib headers (some p) true trustedCidrs = some (normalizeIp ip) := by
  have hcomma : ∀ hop ∈ A ++ c :: T, ',' ∉ hop := fun hop hhop hmem => (hvisible hop hhop ',' hmem).2 rfl
  -- the joined chain is visible ASCII: its hops' characters and the commas
  have hjoined : ∀ ch ∈ [','].intercalate (A ++ c :: T), VisibleChar ch := by
    intro ch hch
    rcases mem_intercalate_singleton hch with rfl | ⟨hop, hhop, hmem⟩
    · exact .inr ⟨by decide, by decide⟩
    · exact (hvisible hop hhop ch hmem).1
  have hstr : headerStr lib headers "x-forwarded-for" = some ([','].intercalate (A ++ c :: T)) := by
    rw [headerStr_eq, hxff, Option.bind_some, hlib, headerToStr_ascii hjoined]
  rw [resolveClientIp_trusted hne hpeer, hstr, Option.bind_some, xffClient_chain hcomma hc huntrusted hT]
  rfl

/-- A trusted proxy appends the client `1.2.3.4` to an `X-Forwarded-For`
whose attacker-written first hop holds the byte `0x80` (obs-text, which HTTP
allows in a value): `to_str` fails, the whole chain is dropped, and the
attacker's `X-Real-IP: 5.6.7.8` is answered in place of `1.2.3.4` — for
every header map holding these two values, and every trusted network that
holds the peer `10.0.0.1`. -/
theorem obs_text_xff_spoofed (hlib : lib.ToStrVisible) (headers : H)
    (hxff : lib.headerGet headers "x-forwarded-for" = some (0x80 :: ", 1.2.3.4".toList.map asciiByte))
    (hreal : lib.headerGet headers "x-real-ip" = some ("5.6.7.8".toList.map asciiByte))
    (net : N) (hpeer : lib.contains net (.v4 ⟨10, 0, 0, 1⟩) = true) :
    resolveClientIp lib headers (some (.v4 ⟨10, 0, 0, 1⟩)) true [net] = some (.v4 ⟨5, 6, 7, 8⟩) := by
  -- the chain does not read as text, while `X-Real-IP` does
  have hxffStr : headerStr lib headers "x-forwarded-for" = none := by
    rw [headerStr_eq, hxff, Option.bind_some, hlib]
    decide
  have hrealIp : headerIp lib headers "x-real-ip" = some (.v4 ⟨5, 6, 7, 8⟩) := by
    rw [headerIp_eq, headerStr_eq, hreal, Option.bind_some, hlib]
    decide
  have htrusted : peerTrusted lib [net] (.v4 ⟨10, 0, 0, 1⟩) = true := by
    simp [peerTrusted, hpeer]
  rw [resolveClientIp_trusted (List.cons_ne_nil _ _) htrusted, hxffStr, hrealIp]
  rfl

/-- The two headers in a map listed in order, and the network `10.0.0.0/8`. -/
theorem obs_text_xff_spoofed_10_8 :
    resolveClientIp ⟨listHeaderGet, headerToStr, IpNet.contains⟩
        [("x-forwarded-for", 0x80 :: ", 1.2.3.4".toList.map asciiByte),
          ("x-real-ip", "5.6.7.8".toList.map asciiByte)]
        (some (.v4 ⟨10, 0, 0, 1⟩)) true [.v4 ⟨10, 0, 0, 0⟩ 8] =
      some (.v4 ⟨5, 6, 7, 8⟩) :=
  obs_text_xff_spoofed (fun _ => rfl) _ rfl rfl _ (by decide)

end DeltaGlider.RateLimit
