import DeltaGlider.Lib.IpAddr

/-!
# The outbound URL guard

`validate_outbound_url`, `check_host` and `ip_is_acceptable` of
`src/security.rs`.  The URL parser (`reqwest::Url::parse`) is a parameter:
the guard reads only its `scheme()` and `host_str()`.  The host is trimmed of
brackets and lowercased; a forbidden name or suffix is refused; a host that
parses as an address must be acceptable for the URL's kind.

For the production kinds an accepted literal IPv4 host is outside every range
`ipv4_is_private` names, and an accepted IPv6 host is not loopback,
unspecified, multicast, unique-local, link-local or IPv4-mapped; the IPv4
metadata address is refused in its plain and mapped forms for every kind:

    kind ≠ BackendDev → ip_is_acceptable (v4 a) kind → a in no forbidden range  (ipIsAcceptable_v4)
    so for an accepted URL whose host is a literal IPv4 address              (validateOutboundUrl_v4)
    kind ≠ BackendDev → ip_is_acceptable (v6 a) kind → a in no forbidden range  (ipIsAcceptable_v6)
    ip_is_acceptable (169.254.169.254) kind = false, also mapped              (metadata_refused)

The other encodings of an IPv4 address inside IPv6 (IPv4-compatible
`::a.b.c.d`, NAT64 `64:ff9b::/96`, 6to4 `2002::/16`) pass for every kind,
the metadata address included (`embedded_metadata_accepted`).
-/

namespace DeltaGlider.Security

open StdNet

/-! ## Algorithm -/

/-- `UrlKind`. -/
inductive UrlKind where
  | backend
  | backendDev
  | oidc
  | webhook
  deriving DecidableEq, Repr

/-- `UrlValidationError`. -/
inductive UrlValidationError where
  | empty
  | parse (message : String)
  | badScheme (scheme : String)
  | noHost
  | forbiddenIp (host : String)
  | forbiddenHost (host : String)
  deriving DecidableEq, Repr

/-- What the guard reads of a parsed URL: `scheme()` and `host_str()`. -/
structure ParsedUrl where
  scheme : String
  hostStr : Option String
  deriving DecidableEq, Repr

/-- `FORBIDDEN_HOSTNAMES`. -/
def forbiddenHostnames : List String :=
  ["localhost", "localhost.localdomain", "ip6-localhost", "ip6-loopback", "metadata.google.internal",
    "metadata", "metadata.aws"]

/-- `FORBIDDEN_SUFFIXES`. -/
def forbiddenSuffixes : List String := [".internal", ".local", ".localdomain"]

/-- `DEV_ALLOWED`. -/
def devAllowed : List String := ["localhost", "ip6-localhost", "ip6-loopback"]

/-- `ip_is_metadata_service`: `169.254.169.254`, plain or IPv4-mapped. -/
def ipIsMetadataService : IpAddr → Bool
  | .v4 v4 => v4 == ⟨169, 254, 169, 254⟩
  | .v6 v6 => (v6.toIpv4Mapped.map fun m => m == ⟨169, 254, 169, 254⟩).getD false

/-- `ipv4_is_private`: the standard library's special ranges, CGNAT
`100.64.0.0/10`, `192.0.0.0/24` and `198.18.0.0/15`. -/
def ipv4IsPrivate (ip : Ipv4Addr) : Bool :=
  ip.isLoopback || ip.isLinkLocal || ip.isBroadcast || ip.isDocumentation || ip.isUnspecified ||
    ip.isMulticast || ip.isPrivate || (ip.a == 100 && (ip.b &&& 0xC0) == 64) ||
    (ip.a == 192 && ip.b == 0 && ip.c == 0) || (ip.a == 198 && (ip.b == 18 || ip.b == 19))

/-- `ipv6_is_private`: loopback, unspecified, multicast, unique local
`fc00::/7`, link-local `fe80::/10`, and every IPv4-mapped address. -/
def ipv6IsPrivate (ip : Ipv6Addr) : Bool :=
  ip.isLoopback || ip.isUnspecified || ip.isMulticast || (ip.s0 &&& 0xfe00) == 0xfc00 ||
    (ip.s0 &&& 0xffc0) == 0xfe80 || ip.toIpv4Mapped.isSome

/-- The `private` of `ip_is_acceptable`: the family's range test. -/
def ipIsPrivate : IpAddr → Bool
  | .v4 v4 => ipv4IsPrivate v4
  | .v6 v6 => ipv6IsPrivate v6

/-- `ip_is_acceptable`: never the metadata service; a private address only
for `BackendDev`. -/
def ipIsAcceptable (ip : IpAddr) (kind : UrlKind) : Bool :=
  if ipIsMetadataService ip then false
  else if !ipIsPrivate ip then true
  else kind == .backendDev

/-- `str::trim_matches` with a set of characters. -/
def trimMatchesAny (cs s : List Char) : List Char :=
  ((s.dropWhile (· ∈ cs)).reverse.dropWhile (· ∈ cs)).reverse

/-- The `normalised` host of `check_host`: brackets trimmed, ASCII lowercase. -/
def normalisedHost (host : String) : List Char :=
  (trimMatchesAny ['[', ']'] host.toList).map Char.toLower

/-- The name test of `check_host`: a forbidden name or suffix, unless the kind
is `BackendDev` and the name (if any) is one `DEV_ALLOWED` lists. -/
def hostForbidden (normalised : List Char) (kind : UrlKind) : Bool :=
  let nameHit := forbiddenHostnames.any fun h => normalised == h.toList
  let suffixHit := forbiddenSuffixes.any fun s => s.toList.isSuffixOf normalised
  let devOk := kind == .backendDev && (!nameHit || devAllowed.any fun h => normalised == h.toList)
  (nameHit || suffixHit) && !devOk

/-- `check_host`. -/
def checkHost (host : String) (kind : UrlKind) : Except UrlValidationError Unit :=
  let normalised := normalisedHost host
  if hostForbidden normalised kind then .error (.forbiddenHost host)
  else
    match parseIpAddr normalised with
    | some ip => if !ipIsAcceptable ip kind then .error (.forbiddenIp host) else .ok ()
    | none => .ok ()

/-- The scheme test: `https`, and also `http` for `BackendDev`. -/
def schemeAllowed (scheme : String) (kind : UrlKind) : Bool :=
  if kind == .backendDev then scheme == "https" || scheme == "http" else scheme == "https"

/-- `validate_outbound_url`, with the URL parser as a parameter. -/
def validateOutboundUrl (parseUrl : String → Except String ParsedUrl) (url : String) (kind : UrlKind) :
    Except UrlValidationError Unit :=
  if url.isEmpty then .error .empty
  else
    match parseUrl url with
    | .error e => .error (.parse e)
    | .ok parsed =>
      if !schemeAllowed parsed.scheme kind then .error (.badScheme parsed.scheme)
      else
        match parsed.hostStr with
        | none => .error .noHost
        | some host => checkHost host kind

/-! ## Lemmas -/

/-- An accepted URL parsed with a scheme its kind allows and a host that
`check_host` accepts. -/
theorem validateOutboundUrl_ok {parseUrl : String → Except String ParsedUrl} {url : String}
    {kind : UrlKind} (h : validateOutboundUrl parseUrl url kind = .ok ()) :
    ∃ parsed host, parseUrl url = .ok parsed ∧ schemeAllowed parsed.scheme kind = true ∧
      parsed.hostStr = some host ∧ checkHost host kind = .ok () := by
  unfold validateOutboundUrl at h
  split at h
  · cases h
  · split at h
    · cases h
    · rename_i parsed hparse
      split at h
      · cases h
      · rename_i hscheme
        split at h
        · cases h
        · rename_i host hhost
          exact ⟨parsed, host, hparse, by simpa using hscheme, hhost, h⟩

/-- A host that `check_host` accepts and that parses as an address carries an
acceptable address. -/
theorem checkHost_ok_ip {host : String} {kind : UrlKind} {ip : IpAddr} (h : checkHost host kind = .ok ())
    (hip : parseIpAddr (normalisedHost host) = some ip) : ipIsAcceptable ip kind = true := by
  simp only [checkHost] at h
  split at h
  · cases h
  · simp only [hip] at h
    by_contra hbad
    simp [hbad] at h

/-- `ip_is_acceptable` for a kind other than `BackendDev`: neither the
metadata service nor private. -/
theorem ipIsAcceptable_of_ne {ip : IpAddr} {kind : UrlKind} (hk : kind ≠ .backendDev)
    (h : ipIsAcceptable ip kind = true) : ipIsMetadataService ip = false ∧ ipIsPrivate ip = false := by
  unfold ipIsAcceptable at h
  by_cases hmeta : ipIsMetadataService ip = true
  · simp [hmeta] at h
  · by_cases hpriv : ipIsPrivate ip = true
    · simp [hmeta, hpriv] at h
      exact absurd h hk
    · exact ⟨by simpa using hmeta, by simpa using hpriv⟩

/-- An IPv4 host accepted for a production kind is outside every forbidden
range: loopback, unspecified, RFC 1918, CGNAT, link-local, multicast, and the
metadata address. -/
theorem ipIsAcceptable_v4 {a : Ipv4Addr} {kind : UrlKind} (hk : kind ≠ .backendDev)
    (h : ipIsAcceptable (.v4 a) kind = true) :
    a.isLoopback = false ∧ a.isUnspecified = false ∧ a.isPrivate = false ∧
      ¬ (a.a = 100 ∧ a.b &&& 0xC0 = 64) ∧ a.isLinkLocal = false ∧ a.isMulticast = false ∧
      a ≠ ⟨169, 254, 169, 254⟩ := by
  obtain ⟨hmeta, hpriv⟩ := ipIsAcceptable_of_ne hk h
  simp only [ipIsPrivate, ipv4IsPrivate, Bool.or_eq_false_iff] at hpriv
  obtain ⟨⟨⟨⟨⟨⟨⟨⟨⟨hloop, hlink⟩, -⟩, -⟩, hunspec⟩, hmulti⟩, hpriv⟩, hcgnat⟩, -⟩, -⟩ := hpriv
  refine ⟨hloop, hunspec, hpriv, ?_, hlink, hmulti, ?_⟩
  · rintro ⟨ha, hb⟩
    simp [ha, hb] at hcgnat
  · intro heq
    simp [ipIsMetadataService, heq] at hmeta

/-- An IPv6 host accepted for a production kind is not loopback, unspecified,
multicast, unique-local or link-local, and is no IPv4-mapped address. -/
theorem ipIsAcceptable_v6 {a : Ipv6Addr} {kind : UrlKind} (hk : kind ≠ .backendDev)
    (h : ipIsAcceptable (.v6 a) kind = true) :
    a.isLoopback = false ∧ a.isUnspecified = false ∧ a.isMulticast = false ∧
      (a.s0 &&& 0xfe00) ≠ 0xfc00 ∧ (a.s0 &&& 0xffc0) ≠ 0xfe80 ∧ a.toIpv4Mapped = none := by
  obtain ⟨-, hpriv⟩ := ipIsAcceptable_of_ne hk h
  simp only [ipIsPrivate, ipv6IsPrivate, Bool.or_eq_false_iff, beq_eq_false_iff_ne, ne_eq,
    Option.isSome_eq_false_iff, Option.isNone_iff_eq_none] at hpriv
  obtain ⟨⟨⟨⟨⟨hloop, hunspec⟩, hmulti⟩, hula⟩, hlink⟩, hmapped⟩ := hpriv
  exact ⟨hloop, hunspec, hmulti, hula, hlink, hmapped⟩

/-- A URL accepted for a production kind whose host is a literal IPv4
address: that address is in no forbidden range. -/
theorem validateOutboundUrl_v4 {parseUrl : String → Except String ParsedUrl} {url host : String}
    {kind : UrlKind} {parsed : ParsedUrl} {a : Ipv4Addr} (h : validateOutboundUrl parseUrl url kind = .ok ())
    (hk : kind ≠ .backendDev) (hparse : parseUrl url = .ok parsed) (hhost : parsed.hostStr = some host)
    (hip : parseIpAddr (normalisedHost host) = some (.v4 a)) :
    a.isLoopback = false ∧ a.isUnspecified = false ∧ a.isPrivate = false ∧
      ¬ (a.a = 100 ∧ a.b &&& 0xC0 = 64) ∧ a.isLinkLocal = false ∧ a.isMulticast = false ∧
      a ≠ ⟨169, 254, 169, 254⟩ := by
  obtain ⟨parsed', host', hparse', -, hhost', hcheck⟩ := validateOutboundUrl_ok h
  have hsame : parsed' = parsed := by
    rw [hparse] at hparse'
    exact (Except.ok.inj hparse').symm
  subst hsame
  have hhost_eq : host' = host := Option.some_inj.mp (hhost'.symm.trans hhost)
  subst hhost_eq
  exact ipIsAcceptable_v4 hk (checkHost_ok_ip hcheck hip)

/-- The metadata address is refused for every kind, plain and IPv4-mapped. -/
theorem metadata_refused (kind : UrlKind) :
    ipIsAcceptable (.v4 ⟨169, 254, 169, 254⟩) kind = false ∧
      ipIsAcceptable (.v6 (Ipv6Addr.mapped ⟨169, 254, 169, 254⟩)) kind = false := by
  constructor
  · simp [ipIsAcceptable, ipIsMetadataService]
  · simp [ipIsAcceptable, ipIsMetadataService, Ipv6Addr.toIpv4Mapped_mapped]

/-- The metadata address in the three other IPv4-in-IPv6 encodings passes
`ip_is_acceptable` for every kind, and `check_host` accepts it as an OIDC,
webhook or backend host (`reqwest` gives the bracketed `host_str`). -/
theorem embedded_metadata_accepted :
    (∀ kind, ipIsAcceptable (.v6 ⟨0, 0, 0, 0, 0, 0, 0xa9fe, 0xa9fe⟩) kind = true) ∧
    (∀ kind, ipIsAcceptable (.v6 ⟨0x64, 0xff9b, 0, 0, 0, 0, 0xa9fe, 0xa9fe⟩) kind = true) ∧
    (∀ kind, ipIsAcceptable (.v6 ⟨0x2002, 0xa9fe, 0xa9fe, 0, 0, 0, 0, 0⟩) kind = true) ∧
    checkHost "[::a9fe:a9fe]" .oidc = .ok () ∧
    checkHost "[64:ff9b::a9fe:a9fe]" .webhook = .ok () ∧
    checkHost "[2002:a9fe:a9fe::]" .backend = .ok () := by
  refine ⟨fun kind => ?_, fun kind => ?_, fun kind => ?_, by decide, by decide, by decide⟩ <;>
    cases kind <;> decide

end DeltaGlider.Security
