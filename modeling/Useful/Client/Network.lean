/-
# The policy for network destinations

`network.rs` of the repository client: which URLs may be asked for, which addresses they
may resolve to, and where a redirect may lead. The checks on addresses are written on
octets; here they are compared with the blocks the registries set aside.
-/

import Useful.Math.Address
import Useful.Math.Checks

namespace Useful.Client.Network

open Useful.Math

/-! ## URLs -/

inductive Host
  | domain (name : String)
  | ipv4 (ip : Ipv4Addr)
  | ipv6 (ip : Ipv6Addr)
  deriving DecidableEq, Repr

/-- A parsed URL, and the text it is written as. -/
structure Url where
  scheme : String
  username : String := ""
  password : Option String := none
  host : Option Host
  port : Option Nat := none
  path : String := "/"
  query : Option String := none
  fragment : Option String := none
  text : String
  deriving DecidableEq, Repr

/-- A URL of the loopback interface. -/
def loopbackUrl : Url where
  scheme := "http"
  host := some (.ipv4 ⟨127, 0, 0, 1⟩)
  text := "http://127.0.0.1/"

/-- The `url` crate. What it parses it parses again from the text it writes, alone and
as a reference. -/
structure UrlLibrary where
  parse : String → Except String Url
  join : Url → String → Except String Url
  parse_text : ∀ {s u}, parse s = .ok u → parse u.text = .ok u
  parse_joined : ∀ {base s u}, join base s = .ok u → parse u.text = .ok u
  join_text : ∀ base {u}, parse u.text = .ok u → join base u.text = .ok u
  parse_loopback : parse loopbackUrl.text = .ok loopbackUrl

inductive NetworkPolicyError
  | invalidUrl (detail : String)
  | httpsRequired
  | localBoundary
  | fileBoundary
  | ambiguousAuthority
  | missingHost
  | forbiddenAddress (ip : IpAddr)
  | noAddresses
  | tooManyRedirects
  deriving DecidableEq, Repr

/-- The `Display` texts. -/
def NetworkPolicyError.display (showIp : IpAddr → String) : NetworkPolicyError → String
  | invalidUrl detail => s!"URL 无效: {detail}"
  | httpsRequired => "生产源 URL 必须为 HTTPS"
  | localBoundary => "本地/开发 URL 仅允许 file:// 或 loopback 主机"
  | fileBoundary => "file URL 必须是无远程 host、query 或 fragment 的本机绝对路径"
  | ambiguousAuthority => "URL 禁止用户名、密码或 fragment"
  | missingHost => "目标主机缺失"
  | forbiddenAddress ip => let ip := showIp ip; s!"目标解析到被禁止的本地、私有、保留或特殊地址: {ip}"
  | noAddresses => "目标没有可用的解析地址"
  | tooManyRedirects => "重定向次数超限"

/-- `hostname_is_loopback`. -/
def hostnameIsLoopback (host : String) : Bool :=
  let host := (host.toList.reverse.dropWhile (· == '.')).reverse.map Char.toLower
  host == "localhost".toList || ".localhost".toList.isSuffixOf host

namespace Host

/-- The name, if the host is one. An address literal never reads as a loopback name. -/
def isLoopbackName : Host → Bool
  | domain name => hostnameIsLoopback name
  | _ => false

/-- The address, if the host is one. -/
def literal : Host → Option IpAddr
  | domain _ => none
  | ipv4 ip => some (.v4 ip)
  | ipv6 ip => some (.v6 ip)

/-- A name for the loopback interface, or one of its addresses. -/
def isLocal (host : Host) : Bool :=
  host.isLoopbackName || host.literal.any IpAddr.isLoopback

end Host

/-- `parsed_is_local`. -/
def parsedIsLocal (url : Url) : Bool := url.scheme == "file" || url.host.any Host.isLocal

/-! ## Addresses -/

/-- `forbidden_v4`. -/
def forbiddenV4 (ip : Ipv4Addr) : Bool :=
  let (a, b, c, d) := (ip.a, ip.b, ip.c, ip.d)
  a == 0
    || a == 10
    || a == 127
    || (a == 100 && 64 ≤ b && b ≤ 127)
    || (a == 168 && b == 63 && c == 129 && d == 16)
    || (a == 169 && b == 254)
    || (a == 172 && 16 ≤ b && b ≤ 31)
    || (a == 192 && b == 168)
    || (a == 192 && b == 0 && c == 0)
    || (a == 192 && b == 0 && c == 2)
    || (a == 192 && b == 88 && c == 99)
    || (a == 198 && (b == 18 || b == 19))
    || (a == 198 && b == 51 && c == 100)
    || (a == 203 && b == 0 && c == 113)
    || 224 ≤ a
    || (a == 255 && b == 255 && c == 255 && d == 255)

/-- `forbidden_v6`. -/
def forbiddenV6 (ip : Ipv6Addr) : Bool :=
  let o := ip.octets
  if o.all (· == 0)
      || ip.isLoopback
      || ip.o0 == 0xff
      || (ip.o0 &&& 0xfe) == 0xfc
      || (ip.o0 &&& 0xe0) != 0x20
      || (ip.o0 == 0xfe && (ip.o1 &&& 0xc0) == 0x80)
      || (ip.o0 == 0xfe && (ip.o1 &&& 0xc0) == 0xc0)
      || (o.take 2 == [0x20, 0x01] && ip.o2 < 0x02)
      || o.take 4 == [0x20, 0x01, 0x0d, 0xb8]
      || o.take 2 == [0x20, 0x02]
      || (ip.o0 == 0x3f && (ip.o1 &&& 0xf0) == 0xf0)
      || o.take 8 == [0x01, 0x00, 0, 0, 0, 0, 0, 0]
      || o.take 6 == [0x20, 0x01, 0x00, 0x02, 0, 0] then
    true
  else if (o.take 12).all (· == 0)
      || ((o.take 10).all (· == 0) && (o.drop 10).take 2 == [0xff, 0xff]) then
    forbiddenV4 ⟨ip.o12, ip.o13, ip.o14, ip.o15⟩
  else
    false

/-- `is_forbidden_ip`. -/
def isForbiddenIp : IpAddr → Bool
  | .v4 ip => forbiddenV4 ip
  | .v6 ip => forbiddenV6 ip

/-! ## The checks -/

section Checks

variable (lib : UrlLibrary)

/-- What `validate_url` asks of a parsed URL. -/
def checkUrl (parsed : Url) (allowLocal : Bool) : Except NetworkPolicyError Unit := do
  failIf (parsed.username ≠ "" ∨ parsed.password.isSome ∨ parsed.fragment.isSome)
    .ambiguousAuthority
  if parsed.scheme = "file" then
    failIf (allowLocal = false) .localBoundary
    failIf (parsed.host.isSome ∨ parsed.query.isSome ∨ ¬ "/".toList.isPrefixOf parsed.path.toList)
      .fileBoundary
  else
    match parsed.host with
    | none => .error .missingHost
    | some host =>
        if allowLocal ∧ (parsed.scheme = "http" ∨ parsed.scheme = "https") ∧ host.isLocal then
          .ok ()
        else do
          failIf (parsed.scheme ≠ "https") .httpsRequired
          failIf host.isLoopbackName .localBoundary
          match host.literal with
          | some ip => failIf (isForbiddenIp ip) (.forbiddenAddress ip)
          | none => .ok ()

/-- `validate_url`. -/
def validateUrl (url : String) (allowLocal : Bool) : Except NetworkPolicyError Url := do
  failIf (url.utf8ByteSize > 2048) (.invalidUrl "URL 过长")
  let parsed ← (lib.parse url).mapError .invalidUrl
  checkUrl parsed allowLocal
  return parsed

/-- The check of one resolved address. -/
def checkAddress (allowLocal : Bool) (ip : IpAddr) : Except NetworkPolicyError PUnit := do
  failIf (allowLocal ∧ ip.isLoopback = false) (.forbiddenAddress ip)
  failIf (allowLocal = false ∧ isForbiddenIp ip) (.forbiddenAddress ip)

/-- `validate_resolved_addresses`. -/
def validateResolvedAddresses (addresses : List IpAddr) (allowLocal : Bool) :
    Except NetworkPolicyError (List IpAddr) := do
  failIf (addresses = []) .noAddresses
  forM addresses (checkAddress allowLocal)
  return addresses

/-- `MAX_REDIRECTS`. -/
def maxRedirects : Nat := 3

/-- `validate_redirect`. -/
def validateRedirect (previous : Url) (location : String) (redirectsFollowed : Nat)
    (allowLocal : Bool) : Except NetworkPolicyError Url := do
  failIf (redirectsFollowed ≥ maxRedirects) .tooManyRedirects
  let next ← (lib.join previous location).mapError .invalidUrl
  validateUrl lib next.text (allowLocal && parsedIsLocal previous)

/-- `is_local_url` of `discovery.rs`. -/
def isLocalUrl (url : String) : Bool :=
  (validateUrl lib url true).isOk && !(validateUrl lib url false).isOk

end Checks

/-! ## Addresses that pass -/

/-- An IPv4 address that is not forbidden is public. -/
theorem isPublic_of_not_forbiddenV4 {ip : Ipv4Addr} (h : forbiddenV4 ip = false) :
    ip.IsPublic := by
  intro block hblock hsame
  have hoctets := Ipv4Addr.sameBlock_octets ip block.1
  have hbits := Ipv4Addr.sameBlock_bits ip block.1
  simp only [Ipv4Addr.specialBlocks, List.mem_cons, List.not_mem_nil, or_false] at hblock
  rcases hblock with rfl | rfl | rfl | rfl | rfl | rfl | rfl | rfl | rfl | rfl | rfl | rfl | rfl |
    rfl | rfl
  · simp [forbiddenV4, hoctets.1 hsame] at h
  · simp [forbiddenV4, hoctets.1 hsame] at h
  · obtain ⟨ha, hb⟩ := hbits.2.1 hsame
    have hlow : 64 ≤ ip.b := UInt8.le_iff_toNat_le.mpr (by simp at hb ⊢; omega)
    have hhigh : ip.b ≤ 127 := UInt8.le_iff_toNat_le.mpr (by simp at hb ⊢; omega)
    simp [forbiddenV4, ha, hlow, hhigh] at h
  · simp [forbiddenV4, hoctets.1 hsame] at h
  · simp [forbiddenV4, hoctets.2.1 hsame] at h
  · obtain ⟨ha, hb⟩ := hbits.2.2.1 hsame
    have hlow : 16 ≤ ip.b := UInt8.le_iff_toNat_le.mpr (by simp at hb ⊢; omega)
    have hhigh : ip.b ≤ 31 := UInt8.le_iff_toNat_le.mpr (by simp at hb ⊢; omega)
    simp [forbiddenV4, ha, hlow, hhigh] at h
  · simp [forbiddenV4, hoctets.2.2 hsame] at h
  · simp [forbiddenV4, hoctets.2.2 hsame] at h
  · simp [forbiddenV4, hoctets.2.2 hsame] at h
  · simp [forbiddenV4, hoctets.2.1 hsame] at h
  · obtain ⟨ha, hb⟩ := hbits.2.2.2 hsame
    have hboth : ip.b = 18 ∨ ip.b = 19 := by
      simp only [← UInt8.toNat_inj, UInt8.toNat_ofNat] at hb ⊢
      omega
    rcases hboth with hb | hb
    all_goals simp [forbiddenV4, ha, hb] at h
  · simp [forbiddenV4, hoctets.2.2 hsame] at h
  · simp [forbiddenV4, hoctets.2.2 hsame] at h
  · have ha := hbits.1 hsame
    have hlow : 224 ≤ ip.a := UInt8.le_iff_toNat_le.mpr (by simp at ha ⊢; omega)
    simp [forbiddenV4, hlow] at h
  · have ha := hbits.1 hsame
    have hlow : 224 ≤ ip.a := UInt8.le_iff_toNat_le.mpr (by simp at ha ⊢; omega)
    simp [forbiddenV4, hlow] at h

/-- The first three bits of an octet are those of global unicast. -/
theorem div_of_and_eq {o : UInt8} (h : (o &&& 0xe0) = 0x20) : o.toNat / 32 = 1 := by
  have hbits : ∀ n < 256, n &&& 224 = 32 → n / 32 = 1 := by decide +kernel
  apply hbits _ o.toNat_lt
  simpa using congrArg UInt8.toNat h

/-- An IPv6 address that is not forbidden is public. -/
theorem isPublic_of_not_forbiddenV6 {ip : Ipv6Addr} (h : forbiddenV6 ip = false) :
    ip.IsPublic := by
  have hunicast : (ip.o0 &&& 0xe0) = 0x20 := by
    by_contra hother
    simp [forbiddenV6, hother] at h
  refine ⟨(Ipv6Addr.sameBlock_octets _ ip).2.2.2.2.mpr (div_of_and_eq hunicast), ?_⟩
  intro block hblock hsame
  have hoctets := Ipv6Addr.sameBlock_octets ip block.1
  simp only [Ipv6Addr.specialBlocks, List.mem_cons, List.not_mem_nil, or_false] at hblock
  rcases hblock with rfl | rfl | rfl | rfl
  · obtain ⟨h0, h1, h2⟩ := hoctets.2.2.1 hsame
    have hlow : ip.o2 < 2 := UInt8.lt_iff_toNat_lt.mpr (by simp at h2 ⊢; omega)
    simp [forbiddenV6, Ipv6Addr.octets, h0, h1, hlow] at h
  · obtain ⟨h0, h1, h2, h3⟩ := hoctets.2.2.2.1 hsame
    simp [forbiddenV6, Ipv6Addr.octets, h0, h1, h2, h3] at h
  · obtain ⟨h0, h1⟩ := hoctets.1 hsame
    simp [forbiddenV6, Ipv6Addr.octets, h0, h1] at h
  · obtain ⟨h0, h1, -⟩ := hoctets.2.1 hsame
    have hmask : (ip.o1 &&& 0xf0) = 0xf0 := by
      rw [h1]
      decide
    simp [forbiddenV6, h0, hmask] at h

/-- An address that is not forbidden is public. -/
theorem isPublic_of_not_forbidden {ip : IpAddr} (h : isForbiddenIp ip = false) : ip.IsPublic := by
  cases ip with
  | v4 ip => exact isPublic_of_not_forbiddenV4 h
  | v6 ip => exact isPublic_of_not_forbiddenV6 h

end Useful.Client.Network
