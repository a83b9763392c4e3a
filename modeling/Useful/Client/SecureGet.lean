/-
# Following redirects

`secure_get` of `commands/sources.rs` follows redirects by hand. Each hop is checked,
resolved and pinned to the addresses that were checked. A chain from a local URL may stay
local; once it has left the loopback interface it may not come back. One starting URL
escapes this: a loopback name whose URL is written longer than it was given, past the
limit on the length of a URL, is not recognised as local when its addresses are checked.
-/

import Useful.Client.Network
import Useful.Math.Program

namespace Useful.Client.Network

open Useful.Math Useful.Math.Program

/-! ## The network -/

/-- A response: whether its status redirects, and the text of its `Location`, if there is
such a header and it is text. -/
structure Response where
  redirects : Bool
  location : Option (Option String)
  deriving DecidableEq, Repr

/-- What the outside answers at each hop: lookups before the request and those a client
without pinned addresses would make, failures to build a client, and responses. -/
structure Net where
  resolve : Nat → String → Except String (List IpAddr)
  resolveAgain : Nat → String → List IpAddr
  buildFault : Nat → Option String
  send : Nat → Except String Response
  showIp : IpAddr → String

/-- A client with the addresses that are pinned to a name. -/
structure PinnedClient where
  pinned : Option (String × List IpAddr)

/-- The addresses a client connects to. -/
def PinnedClient.addresses (client : PinnedClient) (resolveAgain : String → List IpAddr) (url : Url) :
    List IpAddr :=
  match url.host with
  | none => []
  | some (.ipv4 ip) => [.v4 ip]
  | some (.ipv6 ip) => [.v6 ip]
  | some (.domain name) =>
      match client.pinned with
      | some (host, addresses) => if host = name then addresses else resolveAgain name
      | none => resolveAgain name

/-- A request that was sent: its URL, the addresses that were checked for it and those the
client connects to. -/
structure Hop where
  url : Url
  checked : List IpAddr
  connected : List IpAddr

/-! ## The code -/

/-- `port_or_known_default`. -/
def portOrKnownDefault (url : Url) : Option Nat :=
  match url.port with
  | some port => some port
  | none =>
      if url.scheme = "http" then some 80
      else if url.scheme = "https" then some 443
      else none

section Code

variable (lib : UrlLibrary) (net : Net) (allowLocal : Bool)

/-- The addresses of a host: its own, or those of its name. -/
def resolveHost (hop : Nat) : Host → Except String (List IpAddr)
  | .ipv4 ip => .ok [.v4 ip]
  | .ipv6 ip => .ok [.v6 ip]
  | .domain name => (net.resolve hop name).mapError fun error => s!"DNS 解析失败: {error}"

/-- The pin of a host: an address literal needs none. -/
def pinOf (addresses : List IpAddr) : Host → Option (String × List IpAddr)
  | .domain name => some (name, addresses)
  | _ => none

/-- `pinned_client_for_url`; the addresses that were checked, and the client. -/
def pinnedClientForUrl (hop : Nat) (url : Url) : Except String (List IpAddr × PinnedClient) := do
  let host ← orFail "网络 URL 缺少主机" url.host
  let _ ← orFail "网络 URL 缺少端口" (portOrKnownDefault url)
  let localDestination := isLocalUrl lib url.text
  let ips ← resolveHost net hop host
  let ips ← (validateResolvedAddresses ips (allowLocal && localDestination)).mapError fun error =>
    let error := error.display net.showIp
    s!"目标地址被网络安全策略拒绝: {error}"
  match net.buildFault hop with
  | some error => .error s!"创建固定解析 HTTP 客户端失败: {error}"
  | none => .ok (ips, ⟨pinOf ips host⟩)

/-- Send one request. -/
def requestHop (hop : Nat) (url : Url) : Program String (List Hop) Response := do
  let client ← ofExcept (pinnedClientForUrl lib net allowLocal hop url)
  modify (· ++ [⟨url, client.1, client.2.addresses (net.resolveAgain hop) url⟩])
  ofExcept ((net.send hop).mapError fun error => s!"请求失败: {error}")

/-- Where a redirect leads. -/
def nextUrl (hop : Nat) (current : Url) (response : Response) : Except String Url := do
  let header ← orFail "重定向响应缺少 Location" response.location
  let location ← orFail "重定向 Location 不是合法文本" header
  (validateRedirect lib current location hop allowLocal).mapError fun error =>
    let error := error.display net.showIp
    s!"重定向被网络安全策略拒绝: {error}"

/-- The loop, with the number of turns that are left. -/
def follow : Nat → Nat → Url → Program String (List Hop) Response
  | 0, _, _ => fail "重定向次数超限"
  | turns + 1, hop, current => do
      let response ← requestHop lib net allowLocal hop current
      if response.redirects then do
        let next ← ofExcept (nextUrl lib net allowLocal hop current response)
        follow turns (hop + 1) next
      else
        return response

/-- `secure_get`, with the requests it has sent. -/
def secureGet (url : String) : Program String (List Hop) Response := do
  let current ← ofExcept ((validateUrl lib url allowLocal).mapError fun error =>
    let error := error.display net.showIp
    s!"URL 被网络安全策略拒绝: {error}")
  follow lib net allowLocal (maxRedirects + 1) 0 current

end Code

/-! ## Trust zones -/

namespace Hop

/-- All addresses are public. -/
def Public (hop : Hop) : Prop := ∀ ip ∈ hop.connected, ip.IsPublic

/-- All addresses are those of the loopback interface. -/
def Local (hop : Hop) : Prop := ∀ ip ∈ hop.connected, ip.isLoopback = true

/-- A hop that keeps to its zone, after the hops before it. -/
structure Safe (allowLocal : Bool) (before : List Hop) (hop : Hop) : Prop where
  connects : hop.connected ≠ []
  pinned : ∀ ip ∈ hop.connected, ip ∈ hop.checked
  zone : hop.url.scheme = "https" ∧ hop.Public ∨
    allowLocal = true ∧ (hop.url.scheme = "http" ∨ hop.url.scheme = "https") ∧ hop.Local ∧
      ∀ earlier ∈ before, earlier.Local
  stays : (∃ earlier ∈ before, ¬ earlier.Local) → ¬ hop.Local

end Hop

/-- Every hop of a chain keeps to its zone. -/
def ChainSafe (allowLocal : Bool) (hops : List Hop) : Prop :=
  ∀ before hop after, hops = before ++ hop :: after → hop.Safe allowLocal before

/-- A loopback name that is accepted as given, and whose URL is written with more than
2048 bytes. -/
def LongLoopbackName (lib : UrlLibrary) (url : String) : Prop :=
  ∃ u host, validateUrl lib url true = .ok u ∧ u.host = some host ∧
    host.isLoopbackName = true ∧ 2048 < u.text.utf8ByteSize

section Results

variable {lib : UrlLibrary} {net : Net} {allowLocal : Bool} {u : Url} {hops : List Hop} {k : Nat}

theorem not_isLocal_of_not_forbidden {host : Host} (hname : host.isLoopbackName = false)
    (hliteral : ∀ ip, host.literal = some ip → isForbiddenIp ip = false) :
    host.isLocal = false := by
  unfold Host.isLocal
  rw [hname, Bool.false_or]
  cases hip : host.literal with
  | none => rfl
  | some ip =>
      show ip.isLoopback = false
      by_contra hloopback
      exact IpAddr.not_isPublic_of_isLoopback (Bool.not_eq_false _ ▸ hloopback)
        (isPublic_of_not_forbidden (hliteral ip hip))

/-- A URL that is accepted without local access is HTTPS, to no loopback name and to no
forbidden address. -/
theorem checkUrl_false (h : checkUrl u false = .ok ()) :
    u.scheme = "https" ∧ ∃ host, u.host = some host ∧ host.isLoopbackName = false ∧
      ∀ ip, host.literal = some ip → isForbiddenIp ip = false := by
  unfold checkUrl at h
  obtain ⟨_, -, h⟩ := bind_eq_ok.mp h
  split_ifs at h with hfile
  · obtain ⟨_, hlocal, -⟩ := bind_eq_ok.mp h
    exact absurd rfl (failIf_eq_ok.mp hlocal)
  · cases hhost : u.host with
    | none =>
        rw [hhost] at h
        cases h
    | some host =>
        rw [hhost] at h
        simp only [false_and, if_false, bind_eq_ok, failIf_eq_ok, not_not] at h
        obtain ⟨_, hscheme, _, hname, h⟩ := h
        refine ⟨hscheme, host, rfl, by simpa using hname, ?_⟩
        intro ip hip
        rw [hip] at h
        simpa using failIf_eq_ok.mp h

/-- A URL that is accepted with local access is a file, local, or accepted without. -/
theorem checkUrl_true (h : checkUrl u true = .ok ()) :
    u.host = none ∨
      (∃ host, u.host = some host ∧ (u.scheme = "http" ∨ u.scheme = "https") ∧
        host.isLocal = true) ∨
      checkUrl u false = .ok () := by
  have hchecked := h
  unfold checkUrl at h
  obtain ⟨_, hauthority, h⟩ := bind_eq_ok.mp h
  split_ifs at h with hfile
  · obtain ⟨_, -, h⟩ := bind_eq_ok.mp h
    have hhost := failIf_eq_ok.mp h
    simp only [not_or] at hhost
    exact .inl (by simpa using hhost.1)
  · cases hhost : u.host with
    | none => exact .inl rfl
    | some host =>
        rw [hhost] at h
        simp only [true_and] at h
        split_ifs at h with hlocal
        · exact .inr (.inl ⟨host, rfl, hlocal⟩)
        · refine .inr (.inr ?_)
          unfold checkUrl
          rw [Useful.Math.bind_of_eq_ok hauthority, if_neg hfile, hhost]
          simpa using h

theorem parsedIsLocal_of_checkUrl_false (h : checkUrl u false = .ok ()) :
    parsedIsLocal u = false := by
  obtain ⟨hscheme, host, hhost, hname, hliteral⟩ := checkUrl_false h
  simp [parsedIsLocal, hscheme, hhost, not_isLocal_of_not_forbidden hname hliteral]

/-- From its own text, a URL is validated by its checks alone. -/
theorem validateUrl_text (hparse : lib.parse u.text = .ok u) (hsize : u.text.utf8ByteSize ≤ 2048)
    (allow : Bool) : validateUrl lib u.text allow = (checkUrl u allow).map fun _ => u := by
  have hshort : failIf (u.text.utf8ByteSize > 2048) (NetworkPolicyError.invalidUrl "URL 过长") =
      .ok ⟨⟩ := failIf_eq_ok.mpr (Nat.not_lt.mpr hsize)
  unfold validateUrl
  rw [Useful.Math.bind_of_eq_ok hshort, hparse]
  show (do checkUrl u allow; pure u) = _
  cases checkUrl u allow <;> rfl

theorem validateUrl_eq_ok {url : String} {allow : Bool} (h : validateUrl lib url allow = .ok u) :
    url.utf8ByteSize ≤ 2048 ∧ lib.parse url = .ok u ∧ checkUrl u allow = .ok () := by
  simp only [validateUrl, bind_eq_ok, failIf_eq_ok, mapError_eq_ok, pure_eq_ok] at h
  obtain ⟨_, hsize, parsed, hparse, _, hcheck, rfl⟩ := h
  exact ⟨Nat.not_lt.mp hsize, hparse, hcheck⟩

/-- A long URL is never taken for local. -/
theorem isLocalUrl_of_long {url : String} (h : 2048 < url.utf8ByteSize) :
    isLocalUrl lib url = false := by
  have hlong : ∀ allow, (validateUrl lib url allow).isOk = false := by
    intro allow
    cases hvalid : validateUrl lib url allow with
    | error e => rfl
    | ok v => exact absurd (validateUrl_eq_ok hvalid).1 (Nat.not_le.mpr h)
  simp [isLocalUrl, hlong]

/-- When a URL is taken for local: it is short, and accepted with local access alone. -/
theorem isLocalUrl_iff (hparse : lib.parse u.text = .ok u) :
    isLocalUrl lib u.text = true ↔ u.text.utf8ByteSize ≤ 2048 ∧ checkUrl u true = .ok () ∧
      checkUrl u false ≠ .ok () := by
  by_cases hsize : u.text.utf8ByteSize ≤ 2048
  · unfold isLocalUrl
    rw [validateUrl_text hparse hsize, validateUrl_text hparse hsize]
    cases checkUrl u true <;> cases checkUrl u false <;> simp [hsize, Except.map, Except.isOk,
      Except.toBool]
  · have hlong : isLocalUrl lib u.text = false := isLocalUrl_of_long (Nat.not_le.mp hsize)
    simp [hlong, hsize]

/-- Addresses that pass are loopback addresses, or they are public. -/
theorem validateResolvedAddresses_eq_ok {addresses checked : List IpAddr} {allow : Bool}
    (h : validateResolvedAddresses addresses allow = .ok checked) :
    checked = addresses ∧ addresses ≠ [] ∧
      (allow = true → ∀ ip ∈ addresses, ip.isLoopback = true) ∧
      (allow = false → ∀ ip ∈ addresses, ip.IsPublic) := by
  simp only [validateResolvedAddresses, checkAddress, bind_eq_ok, failIf_eq_ok, forM_eq_ok,
    pure_eq_ok] at h
  obtain ⟨_, hsome, _, hall, rfl⟩ := h
  refine ⟨rfl, hsome, ?_, ?_⟩
  · rintro rfl ip hip
    obtain ⟨_, hloopback, -⟩ := hall ip hip
    simpa using hloopback
  · rintro rfl ip hip
    obtain ⟨_, -, hpublic⟩ := hall ip hip
    exact isPublic_of_not_forbidden (by simpa using hpublic)

/-- A client that was built connects to the addresses that were checked, and to no others. -/
theorem pinnedClientForUrl_eq_ok {ips : List IpAddr} {client : PinnedClient}
    (h : pinnedClientForUrl lib net allowLocal k u = .ok (ips, client)) :
    (∀ resolveAgain, client.addresses resolveAgain u = ips) ∧
    (∃ host, u.host = some host ∧ ∀ ip, host.literal = some ip → ips = [ip]) ∧ ips ≠ [] ∧
    ((allowLocal && isLocalUrl lib u.text) = true → ∀ ip ∈ ips, ip.isLoopback = true) ∧
    ((allowLocal && isLocalUrl lib u.text) = false → ∀ ip ∈ ips, ip.IsPublic) := by
  unfold pinnedClientForUrl at h
  simp only [bind_eq_ok, orFail_eq_ok, mapError_eq_ok] at h
  obtain ⟨host, hhost, _, -, resolved, hresolved, checked, hchecked, h⟩ := h
  obtain ⟨rfl, hsome, hloopback, hpublic⟩ := validateResolvedAddresses_eq_ok hchecked
  split at h
  · cases h
  · cases h
    refine ⟨?_, ⟨host, hhost, ?_⟩, hsome, hloopback, hpublic⟩
    · intro resolveAgain
      cases host with
      | domain name => simp [PinnedClient.addresses, hhost, pinOf]
      | ipv4 ip =>
          cases hresolved
          simp [PinnedClient.addresses, hhost]
      | ipv6 ip =>
          cases hresolved
          simp [PinnedClient.addresses, hhost]
    · intro ip hip
      cases host <;> cases hip <;> cases hresolved <;> rfl

/-- What the loop knows of the URL it asks for next: it was accepted as public, or it was
accepted as local, not too long to be recognised as that, with local hops before it. -/
def Admitted (lib : UrlLibrary) (allowLocal : Bool) (u : Url) (hops : List Hop) : Prop :=
  lib.parse u.text = .ok u ∧
    (checkUrl u false = .ok () ∨
      allowLocal = true ∧ checkUrl u true = .ok () ∧
        (∀ host, u.host = some host → host.isLoopbackName = true →
          u.text.utf8ByteSize ≤ 2048) ∧
        ∀ hop ∈ hops, hop.Local)

theorem chainSafe_nil : ChainSafe allowLocal [] := by
  intro before hop after h
  cases before <;> cases h

/-- A chain is extended by a safe hop. -/
theorem ChainSafe.append {hop : Hop} (hchain : ChainSafe allowLocal hops)
    (hhop : hop.Safe allowLocal hops) : ChainSafe allowLocal (hops ++ [hop]) := by
  intro before last after h
  rcases List.eq_nil_or_concat after with rfl | ⟨init, x, rfl⟩
  · obtain ⟨rfl, heq⟩ := List.append_inj' h rfl
    cases heq
    exact hhop
  · have hsplit : hops ++ [hop] = (before ++ last :: init) ++ [x] := by simpa using h
    exact hchain before last init (List.append_inj' hsplit rfl).1

theorem not_local_of_public {hop : Hop} (hsome : hop.connected ≠ []) (h : hop.Public) :
    ¬ hop.Local := by
  obtain ⟨ip, hip⟩ := List.exists_mem_of_ne_nil _ hsome
  exact fun hlocal => IpAddr.not_isPublic_of_isLoopback (hlocal ip hip) (h ip hip)

/-- A client for an admitted URL makes a safe hop, and a local one if the URL is local. -/
theorem safe_of_pinnedClientForUrl {ips : List IpAddr} {client : PinnedClient}
    (hadmitted : Admitted lib allowLocal u hops)
    (h : pinnedClientForUrl lib net allowLocal k u = .ok (ips, client))
    (resolveAgain : String → List IpAddr) :
    Hop.Safe allowLocal hops ⟨u, ips, client.addresses resolveAgain u⟩ ∧
      (parsedIsLocal u = true → ∀ ip ∈ ips, ip.isLoopback = true) ∧
      (parsedIsLocal u = true → ∀ hop ∈ hops, hop.Local) := by
  obtain ⟨hpinned, ⟨host, hhost, hliteral⟩, hsome, hloopback, hpublic⟩ := pinnedClientForUrl_eq_ok h
  rw [hpinned]
  obtain ⟨hparse, hadmitted⟩ := hadmitted
  by_cases hremote : checkUrl u false = .ok ()
  · have hnot : isLocalUrl lib u.text = false := by
      by_contra hyes
      exact ((isLocalUrl_iff hparse).mp (Bool.not_eq_false _ ▸ hyes)).2.2 hremote
    have hall : ∀ ip ∈ ips, ip.IsPublic := hpublic (by simp [hnot])
    have hnonlocal : parsedIsLocal u = false := parsedIsLocal_of_checkUrl_false hremote
    refine ⟨⟨hsome, fun _ hip => hip, .inl ⟨(checkUrl_false hremote).1, hall⟩, ?_⟩, ?_, ?_⟩
    · exact fun _ => not_local_of_public hsome hall
    · simp [hnonlocal]
    · simp [hnonlocal]
  · obtain ⟨rfl, hlocal, hshort, hbefore⟩ := hadmitted.resolve_left hremote
    have hrecognised : isLocalUrl lib u.text = true ↔ u.text.utf8ByteSize ≤ 2048 := by
      simp [isLocalUrl_iff hparse, hlocal, hremote]
    rcases checkUrl_true hlocal with hnone | ⟨named, hnamed, hscheme, hzone⟩ | hremote'
    · rw [hhost] at hnone
      cases hnone
    · obtain rfl : host = named := Option.some.inj (hhost.symm.trans hnamed)
      by_cases hsize : u.text.utf8ByteSize ≤ 2048
      · have hall : ∀ ip ∈ ips, ip.isLoopback = true := hloopback (by simp [hrecognised, hsize])
        refine ⟨⟨hsome, fun _ hip => hip, .inr ⟨rfl, hscheme, hall, hbefore⟩, ?_⟩, ?_, ?_⟩
        · rintro ⟨earlier, hearlier, hnonlocal⟩
          exact absurd (hbefore earlier hearlier) hnonlocal
        · exact fun _ => hall
        · exact fun _ => hbefore
      · -- A long URL of a loopback address: its address would have to be public.
        have hname : host.isLoopbackName = false := by
          by_contra hname
          exact hsize (hshort host hhost (Bool.not_eq_false _ ▸ hname))
        obtain ⟨ip, hip, hloop⟩ : ∃ ip, host.literal = some ip ∧ ip.isLoopback = true := by
          simpa [Host.isLocal, hname, Option.any_eq_true] using hzone
        have hnot : isLocalUrl lib u.text = false := by simpa using hrecognised.not.mpr hsize
        have hall : ∀ ip ∈ ips, ip.IsPublic := hpublic (by simp [hnot])
        exact absurd (hall ip (by simp [hliteral ip hip]))
          (IpAddr.not_isPublic_of_isLoopback hloop)
    · exact absurd hremote' hremote

/-- The URL a redirect leads to is admitted after a hop, if that hop and those before it
are local whenever the redirecting URL is. -/
theorem admitted_of_nextUrl {next : Url} {response : Response}
    (h : nextUrl lib net allowLocal k u response = .ok next)
    (hlocal : parsedIsLocal u = true → ∀ hop ∈ hops, hop.Local) :
    Admitted lib allowLocal next hops := by
  simp only [nextUrl, validateRedirect, bind_eq_ok, mapError_eq_ok] at h
  obtain ⟨_, -, location, -, _, -, joined, hjoined, hvalid⟩ := h
  obtain ⟨hsize, hparse, hcheck⟩ := validateUrl_eq_ok hvalid
  obtain rfl : joined = next := Except.ok.inj ((lib.parse_joined hjoined).symm.trans hparse)
  refine ⟨hparse, ?_⟩
  cases hallow : (allowLocal && parsedIsLocal u) with
  | false =>
      rw [hallow] at hcheck
      exact .inl hcheck
  | true =>
      rw [hallow] at hcheck
      obtain ⟨hallow, hprevious⟩ : allowLocal = true ∧ parsedIsLocal u = true := by
        simpa using hallow
      exact .inr ⟨hallow, hcheck, fun _ _ _ => hsize, hlocal hprevious⟩

/-- One request after a safe chain leaves a safe chain, local if the URL is. -/
theorem requestHop_spec (hchain : ChainSafe allowLocal hops)
    (hadmitted : Admitted lib allowLocal u hops) :
    Ensures (requestHop lib net allowLocal k u) hops
      (fun _ hops' => ChainSafe allowLocal hops' ∧
        (parsedIsLocal u = true → ∀ hop ∈ hops', hop.Local))
      fun _ => ChainSafe allowLocal := by
  refine ensures_bind.mpr (ensures_ofExcept.mpr ⟨?_, fun _ _ => hchain⟩)
  rintro ⟨ips, client⟩ hclient
  obtain ⟨hsafe, hips, hbefore⟩ :=
    safe_of_pinnedClientForUrl hadmitted hclient (net.resolveAgain k)
  have hpinned := (pinnedClientForUrl_eq_ok hclient).1 (net.resolveAgain k)
  have hchain' := hchain.append hsafe
  refine ensures_bind.mpr (ensures_modify.mpr (ensures_ofExcept.mpr ⟨?_, fun _ _ => hchain'⟩))
  intro _ _
  refine ⟨hchain', ?_⟩
  intro hlocal hop hhop
  rcases List.mem_append.mp hhop with hhop | hhop
  · exact hbefore hlocal hop hhop
  · obtain rfl := List.mem_singleton.mp hhop
    exact hpinned ▸ hips hlocal

/-- The loop keeps the chain safe. -/
theorem follow_spec (turns : Nat) (hchain : ChainSafe allowLocal hops)
    (hadmitted : Admitted lib allowLocal u hops) :
    Ensures (follow lib net allowLocal turns k u) hops (fun _ => ChainSafe allowLocal)
      fun _ => ChainSafe allowLocal := by
  induction turns generalizing k u hops with
  | zero => exact hchain
  | succ turns ih =>
      refine (requestHop_spec hchain hadmitted).bind (fun _ _ => id) ?_
      rintro response hops' ⟨hchain', hlocal⟩
      refine ensures_ite.mpr ⟨fun _ => ?_, fun _ => hchain'⟩
      refine ensures_bind.mpr (ensures_ofExcept.mpr ⟨?_, fun _ _ => hchain'⟩)
      intro next hnext
      exact ih hchain' (admitted_of_nextUrl hnext hlocal)

/-- From any other URL, the chain is safe whatever the network answers. -/
theorem chainSafe_of_not_long {url : String}
    (h : ¬ (allowLocal = true ∧ LongLoopbackName lib url)) (net : Net) :
    ChainSafe allowLocal (secureGet lib net allowLocal url []).2 := by
  have hrun : Ensures (secureGet lib net allowLocal url) [] (fun _ => ChainSafe allowLocal)
      fun _ => ChainSafe allowLocal := by
    refine ensures_bind.mpr (ensures_ofExcept.mpr ⟨?_, fun _ _ => chainSafe_nil⟩)
    intro u hu
    obtain ⟨-, hparse, hcheck⟩ := validateUrl_eq_ok (mapError_eq_ok.mp hu)
    apply follow_spec _ chainSafe_nil
    refine ⟨lib.parse_text hparse, ?_⟩
    cases allowLocal with
    | false => exact .inl hcheck
    | true =>
        refine .inr ⟨rfl, hcheck, ?_, by simp⟩
        intro host hhost hname
        by_contra hlong
        exact h ⟨rfl, u, host, mapError_eq_ok.mp hu, hhost, hname, by omega⟩
  unfold Ensures at hrun
  split at hrun <;> simp_all

/-! ## The URL that escapes -/

/-- Every name is public, and the first answer redirects to the loopback interface. -/
def escapeNet : Net where
  resolve _ _ := .ok [.v4 ⟨93, 184, 216, 34⟩]
  resolveAgain _ _ := []
  buildFault _ := none
  send
    | 0 => .ok ⟨true, some (some loopbackUrl.text)⟩
    | _ + 1 => .error ""
  showIp _ := ""

theorem checkUrl_loopbackUrl : checkUrl loopbackUrl true = .ok () := by decide

theorem isLocalUrl_loopbackUrl : isLocalUrl lib loopbackUrl.text = true := by
  rw [isLocalUrl_iff lib.parse_loopback]
  exact ⟨by decide, checkUrl_loopbackUrl, by decide⟩

/-- A long loopback name is asked for at a public address. -/
theorem requestHop_escape (hsize : 2048 < u.text.utf8ByteSize) {name : String}
    (hport : (portOrKnownDefault u).isSome = true) (hhost : u.host = some (.domain name)) :
    requestHop lib escapeNet true 0 u [] =
      (.ok ⟨true, some (some loopbackUrl.text)⟩,
        [⟨u, [.v4 ⟨93, 184, 216, 34⟩], [.v4 ⟨93, 184, 216, 34⟩]⟩]) := by
  obtain ⟨port, hport⟩ := Option.isSome_iff_exists.mp hport
  have hclient : pinnedClientForUrl lib escapeNet true 0 u =
      .ok ([.v4 ⟨93, 184, 216, 34⟩], ⟨some (name, [.v4 ⟨93, 184, 216, 34⟩])⟩) := by
    unfold pinnedClientForUrl
    rw [hhost, hport, isLocalUrl_of_long hsize]
    rfl
  have haddresses (resolveAgain) : PinnedClient.addresses ⟨some (name, [.v4 ⟨93, 184, 216, 34⟩])⟩
      resolveAgain u = [.v4 ⟨93, 184, 216, 34⟩] := by
    simp [PinnedClient.addresses, hhost]
  unfold requestHop
  rw [hclient]
  show (Except.ok _, [Hop.mk u _ (PinnedClient.addresses ⟨some (name, _)⟩
    (escapeNet.resolveAgain 0) u)]) = _
  rw [haddresses]

/-- The redirect leads back to the loopback interface. -/
theorem nextUrl_escape (hlocal : parsedIsLocal u = true) :
    nextUrl lib escapeNet true 0 u ⟨true, some (some loopbackUrl.text)⟩ = .ok loopbackUrl := by
  have hvalid : validateUrl lib loopbackUrl.text true = .ok loopbackUrl := by
    rw [validateUrl_text lib.parse_loopback (by decide), checkUrl_loopbackUrl]
    rfl
  have hredirect : validateRedirect lib u loopbackUrl.text 0 true = .ok loopbackUrl := by
    unfold validateRedirect
    rw [lib.join_text u lib.parse_loopback, hlocal]
    exact hvalid
  show (validateRedirect lib u loopbackUrl.text 0 true).mapError _ = _
  rw [hredirect]
  rfl

/-- The loopback interface is asked second. -/
theorem requestHop_loopbackUrl (hops : List Hop) :
    requestHop lib escapeNet true 1 loopbackUrl hops =
      (.error "请求失败: ",
        hops ++ [⟨loopbackUrl, [.v4 ⟨127, 0, 0, 1⟩], [.v4 ⟨127, 0, 0, 1⟩]⟩]) := by
  have hclient : pinnedClientForUrl lib escapeNet true 1 loopbackUrl =
      .ok ([.v4 ⟨127, 0, 0, 1⟩], ⟨none⟩) := by
    unfold pinnedClientForUrl
    rw [isLocalUrl_loopbackUrl]
    rfl
  unfold requestHop
  rw [hclient]
  rfl

/-- A chain from a long loopback name may leave the loopback interface and come back. -/
theorem secureGet_escape {url : String} (h : LongLoopbackName lib url) :
    ¬ ChainSafe true (secureGet lib escapeNet true url []).2 := by
  obtain ⟨u, host, hvalid, hhost, hname, hsize⟩ := h
  obtain ⟨-, hparse, hcheck⟩ := validateUrl_eq_ok hvalid
  obtain ⟨name, rfl⟩ : ∃ name, host = .domain name := by
    cases host with
    | domain name => exact ⟨name, rfl⟩
    | ipv4 ip => cases hname
    | ipv6 ip => cases hname
  obtain ⟨hscheme, hlocal⟩ : (u.scheme = "http" ∨ u.scheme = "https") ∧
      parsedIsLocal u = true := by
    rcases checkUrl_true hcheck with hnone | ⟨named, hnamed, hscheme, hzone⟩ | hremote
    · rw [hhost] at hnone
      cases hnone
    · exact ⟨hscheme, by simp [parsedIsLocal, hnamed, hzone]⟩
    · obtain ⟨-, named, hnamed, hremote, -⟩ := checkUrl_false hremote
      obtain rfl := Option.some.inj (hhost.symm.trans hnamed)
      rw [hname] at hremote
      cases hremote
  have hport : (portOrKnownDefault u).isSome = true := by
    unfold portOrKnownDefault
    cases u.port with
    | some port => rfl
    | none => rcases hscheme with hscheme | hscheme <;> simp [hscheme]
  have hrun : secureGet lib escapeNet true url [] =
      (.error "请求失败: ",
        [⟨u, [.v4 ⟨93, 184, 216, 34⟩], [.v4 ⟨93, 184, 216, 34⟩]⟩,
          ⟨loopbackUrl, [.v4 ⟨127, 0, 0, 1⟩], [.v4 ⟨127, 0, 0, 1⟩]⟩]) := by
    unfold secureGet
    rw [hvalid]
    show follow lib escapeNet true 4 0 u [] = _
    unfold follow
    rw [bind_of_eq_ok (requestHop_escape hsize hport hhost)]
    show (ofExcept (nextUrl lib escapeNet true 0 u ⟨true, some (some loopbackUrl.text)⟩) >>=
      fun next => follow lib escapeNet true 3 1 next) _ = _
    rw [nextUrl_escape hlocal]
    show follow lib escapeNet true 3 1 loopbackUrl _ = _
    unfold follow
    rw [bind_of_eq_error (requestHop_loopbackUrl _)]
    rfl
  rw [hrun]
  intro hsafe
  have hlast := hsafe [_] _ [] rfl
  apply hlast.stays
  · refine ⟨_, List.mem_singleton.mpr rfl, ?_⟩
    exact fun hfirst => absurd (hfirst _ (List.mem_singleton.mpr rfl)) (by decide)
  · intro ip hip
    obtain rfl := List.mem_singleton.mp hip
    decide

/-- Which starting URLs keep every chain in its zone. -/
theorem secure_get_zone_iff (lib : UrlLibrary) (allowLocal : Bool) (url : String) :
    (∀ net, ChainSafe allowLocal (secureGet lib net allowLocal url []).2) ↔
      ¬ (allowLocal = true ∧ LongLoopbackName lib url) := by
  constructor
  · rintro h ⟨rfl, hlong⟩
    exact secureGet_escape hlong (h escapeNet)
  · exact chainSafe_of_not_long

end Results

/-! ## A chain that escapes -/

def repeatText (text : String) : Nat → String
  | 0 => ""
  | k + 1 => text ++ repeatText text k

theorem utf8ByteSize_repeatText (text : String) (k : Nat) :
    (repeatText text k).utf8ByteSize = k * text.utf8ByteSize := by
  induction k with
  | zero => simp [repeatText]
  | succ k ih =>
      rw [repeatText, String.utf8ByteSize_append, ih, Nat.succ_mul]
      exact Nat.add_comm _ _

attribute [irreducible] repeatText

/-- A URL of a loopback name whose path takes 680 bytes, and 2040 when it is written. -/
def accentedUrl : Url where
  scheme := "http"
  host := some (.domain "a.localhost")
  path := "/" ++ repeatText "%C3%A9" 340
  text := "http://a.localhost/" ++ repeatText "%C3%A9" 340

/-- The URL as it is given. -/
def accentedText : String := "http://a.localhost/" ++ repeatText "é" 340

/-- A parser that knows two URLs. -/
def parseTwo (text : String) : Except String Url :=
  if text = loopbackUrl.text then .ok loopbackUrl
  else if text = accentedText ∨ text = accentedUrl.text then .ok accentedUrl
  else .error "invalid"

theorem accented_sizes : accentedText.utf8ByteSize = 699 ∧ accentedUrl.text.utf8ByteSize = 2059 := by
  have hhead : "http://a.localhost/".utf8ByteSize = 19 := by decide
  have hraw : "é".utf8ByteSize = 2 := by decide
  have hwritten : "%C3%A9".utf8ByteSize = 6 := by decide
  constructor
  · unfold accentedText
    simp only [String.utf8ByteSize_append, utf8ByteSize_repeatText, hhead, hraw]
  · unfold accentedUrl
    simp only [String.utf8ByteSize_append, utf8ByteSize_repeatText, hhead, hwritten]

theorem size_loopbackUrl : loopbackUrl.text.utf8ByteSize = 17 := by decide

theorem parseTwo_accented : parseTwo accentedText = .ok accentedUrl ∧
    parseTwo accentedUrl.text = .ok accentedUrl := by
  have hother (text : String) (h : text.utf8ByteSize ≠ 17) : text ≠ loopbackUrl.text := by
    rintro rfl
    exact h size_loopbackUrl
  unfold parseTwo
  rw [if_neg (hother _ (by rw [accented_sizes.1]; decide)),
    if_neg (hother _ (by rw [accented_sizes.2]; decide)), if_pos (.inl rfl), if_pos (.inr rfl)]
  exact ⟨rfl, rfl⟩

theorem parseTwo_text {text : String} {u : Url} (h : parseTwo text = .ok u) :
    parseTwo u.text = .ok u := by
  unfold parseTwo at h
  split_ifs at h
  · cases h
    rfl
  · cases h
    exact parseTwo_accented.2

def twoUrls : UrlLibrary where
  parse := parseTwo
  join _ := parseTwo
  parse_text := parseTwo_text
  parse_joined := parseTwo_text
  join_text _ _ := id
  parse_loopback := rfl

theorem longLoopbackName_accented : LongLoopbackName twoUrls accentedText := by
  refine ⟨accentedUrl, .domain "a.localhost", ?_, rfl, by decide, ?_⟩
  · have hshort : failIf (accentedText.utf8ByteSize > 2048) (NetworkPolicyError.invalidUrl
        "URL 过长") = .ok ⟨⟩ := failIf_eq_ok.mpr (by rw [accented_sizes.1]; decide)
    have hparse : twoUrls.parse accentedText = .ok accentedUrl := parseTwo_accented.1
    unfold validateUrl
    rw [Useful.Math.bind_of_eq_ok hshort, hparse]
    rfl
  · rw [accented_sizes.2]
    decide

/-- From that URL, a chain leaves the loopback interface and comes back to it. -/
theorem secure_get_escapes :
    ¬ ∀ net, ChainSafe true (secureGet twoUrls net true accentedText []).2 := by
  intro h
  exact secureGet_escape longLoopbackName_accented (h escapeNet)

end Useful.Client.Network
