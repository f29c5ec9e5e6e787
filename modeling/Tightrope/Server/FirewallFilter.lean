import Tightrope.Core.IpAddress
import Tightrope.Proxy.Headers
import Tightrope.Server.ApiKeyFilter

namespace Tightrope.Db

open Bytes Tightrope.Core

structure FirewallIpRecord where
  id : ℤ
  ipAddress : Bytes
  createdAt : Bytes
  deriving DecidableEq

structure FirewallAllowlist where
  ready : Bool := true
  countRuns : Bool := true
  findRuns : Bool := true
  records : List FirewallIpRecord

def FirewallAllowlist.findByIp (list : FirewallAllowlist) (ipAddress : Bytes) : Option FirewallIpRecord :=
  if !list.findRuns then none else list.records.find? fun record => record.ipAddress = ipAddress

def isFirewallIpAllowed (ip : IpText) (list : FirewallAllowlist) (ipAddress : Option Bytes) : Bool :=
  if !list.ready || !list.countRuns then false
  else if list.records.length = 0 then true
  else match ipAddress.bind (normalizeIpAddress ip) with
    | none => false
    | some normalized => (list.findByIp normalized).isSome

def Outside (ip : IpText) (list : FirewallAllowlist) (ipAddress : Option Bytes) : Prop :=
  ∀ normalized ∈ ipAddress.bind (normalizeIpAddress ip), ∀ record ∈ list.records, record.ipAddress ≠ normalized

theorem isFirewallIpAllowed_outside {ip : IpText} {list : FirewallAllowlist} {ipAddress : Option Bytes}
    (hrecords : list.records ≠ []) (h : Outside ip list ipAddress) : isFirewallIpAllowed ip list ipAddress = false := by
  have hlength : list.records.length ≠ 0 := by rwa [ne_eq, List.length_eq_zero_iff]
  unfold isFirewallIpAllowed
  rw [if_neg hlength]
  split_ifs
  · rfl
  · cases hnormalized : ipAddress.bind (normalizeIpAddress ip) with
    | none => rfl
    | some normalized =>
      have hnone : list.records.find? (fun record => record.ipAddress = normalized) = none := by
        rw [List.find?_eq_none]
        intro record hmem
        simpa using h normalized hnormalized record hmem
      simp [FirewallAllowlist.findByIp, hnone]

end Tightrope.Db

namespace Tightrope.Server

open Bytes Tightrope.Core Db Proxy Proxy.Openai

structure FirewallFilterConfig where
  trustProxyHeaders : Bool := false
  trustedProxyNetworks : List IpNetwork := []

structure FirewallFilterDecision where
  allow : Bool := true
  status : ℕ := 200
  body : Bytes := []
  clientIp : Option Bytes := none
  deriving DecidableEq

def forwardedForName : Bytes := ofString "x-forwarded-for"

def headerValueCaseInsensitive (headers : HeaderMap) (name : Bytes) : Option Bytes :=
  (headers.find? fun header => equalsCaseInsensitive header.1 name).map Prod.snd

section Chain

variable (ip : IpText) (networks : List IpNetwork)

def isTrustedProxySource (host : Bytes) : Bool :=
  if networks = [] then false
  else match normalizeIpAddress ip host with
    | none => false
    | some normalized => networks.any (isIpInNetwork ip normalized)

def readHops : List Bytes → Option (List Bytes)
  | [] => some []
  | chunk :: chunks =>
    if trimAscii chunk = [] then none
    else if !isValidIpAddress ip (trimAscii chunk) then none
    else (readHops chunks).map (trimAscii chunk :: ·)

def resolveHops (currentProxy : Bytes) : List Bytes → Bytes
  | [] => currentProxy
  | previousHop :: hops =>
    if !isTrustedProxySource ip networks currentProxy then currentProxy else resolveHops previousHop hops

def resolveClientIpFromXffChain (socketIp forwardedFor : Bytes) : Option Bytes :=
  (readHops ip (forwardedFor.splitOn 44)).map fun hops => resolveHops ip networks socketIp hops.reverse

def resolveConnectionClientIp (headers : HeaderMap) (socketIp : Option Bytes) (trustProxyHeaders : Bool) :
    Option Bytes :=
  socketIp.map fun socketIp =>
    if trustProxyHeaders && isTrustedProxySource ip networks socketIp then
      ((headerValueCaseInsensitive headers forwardedForName).bind
        (resolveClientIpFromXffChain ip networks socketIp)).getD socketIp
    else socketIp

end Chain

def isFirewallProtectedPath (path : Bytes) : Bool :=
  if path = ofString "/backend-api/codex" || startsWith path (ofString "/backend-api/codex/") then true
  else path = ofString "/v1" || startsWith path (ofString "/v1/")

def parseTrustedProxyNetworks (ip : IpText) (cidrs : List Bytes) : List IpNetwork := cidrs.filterMap (parseIpNetwork ip)

def evaluateFirewallRequest (ip : IpText) (list : FirewallAllowlist) (path : Bytes) (headers : HeaderMap)
    (socketIp : Option Bytes) (config : FirewallFilterConfig) : FirewallFilterDecision :=
  if !isFirewallProtectedPath path then {}
  else
    let clientIp := resolveConnectionClientIp ip config.trustedProxyNetworks headers socketIp config.trustProxyHeaders
    if isFirewallIpAllowed ip list clientIp then { clientIp := clientIp }
    else
      { allow := false
        status := 403
        body := buildErrorEnvelope (ofString "ip_forbidden") (ofString "Access denied for client IP")
          (ofString "access_error") []
        clientIp := clientIp }

section Chain

variable {ip : IpText} {networks : List IpNetwork}

theorem isTrustedProxySource_trimAscii (host : Bytes) :
    isTrustedProxySource ip networks (trimAscii host) = isTrustedProxySource ip networks host := by
  simp [isTrustedProxySource]

theorem trimAscii_ne_nil {hop : Bytes} (h : isValidIpAddress ip hop = true) : trimAscii hop ≠ [] := by
  intro hnil
  simp [isValidIpAddress, parseAddress, hnil] at h

def AllHopsValid (ip : IpText) (chunks : List Bytes) : Prop := ∀ chunk ∈ chunks, isValidIpAddress ip chunk = true

instance : DecidablePred (AllHopsValid ip) := fun chunks => inferInstanceAs (Decidable (∀ chunk ∈ chunks, _))

theorem readHops_of_valid {chunks : List Bytes} (h : AllHopsValid ip chunks) :
    readHops ip chunks = some (chunks.map trimAscii) := by
  induction chunks with
  | nil => rfl
  | cons chunk chunks ih =>
    have hchunk := h chunk List.mem_cons_self
    rw [readHops, isValidIpAddress_trimAscii, if_neg (trimAscii_ne_nil hchunk), if_neg (by simp [hchunk]),
      ih fun later hlater => h later (List.mem_cons_of_mem _ hlater)]
    rfl

theorem readHops_of_invalid {chunks : List Bytes} (h : ¬ AllHopsValid ip chunks) : readHops ip chunks = none := by
  induction chunks with
  | nil => exact absurd (fun chunk hchunk => absurd hchunk List.not_mem_nil) h
  | cons chunk chunks ih =>
    rw [readHops, isValidIpAddress_trimAscii]
    split_ifs with hempty hinvalid
    · rfl
    · rfl
    · have hchunk : isValidIpAddress ip chunk = true := by simpa using hinvalid
      rw [ih, Option.map_none]
      intro hrest
      exact h (List.forall_mem_cons.mpr ⟨hchunk, hrest⟩)

theorem resolveHops_trusted {currentProxy c : Bytes} {ts earlier : List Bytes}
    (hcurrent : isTrustedProxySource ip networks currentProxy = true)
    (hts : ∀ t ∈ ts, isTrustedProxySource ip networks t = true) (hc : isTrustedProxySource ip networks c = false) :
    resolveHops ip networks currentProxy (ts ++ c :: earlier) = c := by
  induction ts generalizing currentProxy with
  | nil =>
    rw [List.nil_append, resolveHops, if_neg (by simp [hcurrent])]
    cases earlier with
    | nil => rfl
    | cons hop earlier => rw [resolveHops, if_pos (by simp [hc])]
  | cons t ts ih =>
    rw [List.cons_append, resolveHops, if_neg (by simp [hcurrent])]
    exact ih (hts t List.mem_cons_self) fun u hu => hts u (List.mem_cons_of_mem _ hu)

/-- The hops that the trusted proxies wrote: the client's own address `c`, then one proxy each. -/
structure ProxyHops (ip : IpText) (networks : List IpNetwork) (c : Bytes) (ts : List Bytes) : Prop where
  valid : AllHopsValid ip (c :: ts)
  single : ∀ hop ∈ c :: ts, 44 ∉ hop
  client : isTrustedProxySource ip networks c = false
  proxies : ∀ t ∈ ts, isTrustedProxySource ip networks t = true

def chainText (hops : List Bytes) : Bytes := List.intercalate [44] hops

variable {socketIp p c v : Bytes} {ts earlier : List Bytes} {headers absent : HeaderMap}

theorem ProxyHops.splitOn_chainText (h : ProxyHops ip networks c ts) : (chainText (c :: ts)).splitOn 44 = c :: ts :=
  List.splitOn_intercalate 44 h.single (List.cons_ne_nil c ts)

theorem ProxyHops.splitOn_chainText_cons (h : ProxyHops ip networks c ts) :
    (chainText (p :: c :: ts)).splitOn 44 = p.splitOn 44 ++ c :: ts := by
  have hcons : chainText (p :: c :: ts) = p ++ 44 :: chainText (c :: ts) := by
    simp [chainText, List.intercalate_cons_cons]
  rw [hcons, List.splitOn_append_cons_self, h.splitOn_chainText]

theorem allHopsValid_append {left right : List Bytes} :
    AllHopsValid ip (left ++ right) ↔ AllHopsValid ip left ∧ AllHopsValid ip right := List.forall_mem_append

theorem ProxyHops.resolveClientIpFromXffChain_eq (h : ProxyHops ip networks c ts)
    (hsocket : isTrustedProxySource ip networks socketIp = true) (hv : v.splitOn 44 = earlier ++ c :: ts) :
    resolveClientIpFromXffChain ip networks socketIp v =
      if AllHopsValid ip earlier then some (trimAscii c) else none := by
  rw [resolveClientIpFromXffChain, hv]
  by_cases hearlier : AllHopsValid ip earlier
  · rw [if_pos hearlier, readHops_of_valid (allHopsValid_append.mpr ⟨hearlier, h.valid⟩), Option.map_some]
    have hreverse : ((earlier ++ c :: ts).map trimAscii).reverse =
        (ts.map trimAscii).reverse ++ trimAscii c :: (earlier.map trimAscii).reverse := by simp
    rw [hreverse, resolveHops_trusted hsocket]
    · intro t ht
      obtain ⟨hop, hhop, rfl⟩ := List.mem_map.mp (List.mem_reverse.mp ht)
      rw [isTrustedProxySource_trimAscii]
      exact h.proxies hop hhop
    · rw [isTrustedProxySource_trimAscii]
      exact h.client
  · have hinvalid : ¬ AllHopsValid ip (earlier ++ c :: ts) := fun hall => hearlier (allHopsValid_append.mp hall).1
    rw [if_neg hearlier, readHops_of_invalid hinvalid, Option.map_none]

theorem resolveConnectionClientIp_trusted (hsocket : isTrustedProxySource ip networks socketIp = true)
    (hv : headerValueCaseInsensitive headers forwardedForName = some v) :
    resolveConnectionClientIp ip networks headers (some socketIp) true =
      some ((resolveClientIpFromXffChain ip networks socketIp v).getD socketIp) := by
  rw [resolveConnectionClientIp, Option.map_some, if_pos (by simp [hsocket]), hv, Option.bind_some]

/-- Text that the client puts before its address changes nothing as long as every hop in it is an address; otherwise the
chain is refused as a whole and the proxy's own address counts. -/
theorem client_address_behind_trusted_proxies (hsocket : isTrustedProxySource ip networks socketIp = true)
    (h : ProxyHops ip networks c ts)
    (hheaders : headerValueCaseInsensitive headers forwardedForName = some (chainText (p :: c :: ts)))
    (habsent : headerValueCaseInsensitive absent forwardedForName = some (chainText (c :: ts))) :
    resolveConnectionClientIp ip networks headers (some socketIp) true =
        some (if AllHopsValid ip (p.splitOn 44) then trimAscii c else socketIp) ∧
      resolveConnectionClientIp ip networks absent (some socketIp) true = some (trimAscii c) := by
  have hnone : (chainText (c :: ts)).splitOn 44 = [] ++ c :: ts := h.splitOn_chainText
  constructor
  · rw [resolveConnectionClientIp_trusted hsocket hheaders,
      h.resolveClientIpFromXffChain_eq hsocket h.splitOn_chainText_cons]
    split_ifs
    · rfl
    · rfl
  · rw [resolveConnectionClientIp_trusted hsocket habsent, h.resolveClientIpFromXffChain_eq hsocket hnone]
    rfl

end Chain

section Sample

def octet (part : Bytes) : Option (BitVec 8) :=
  if part = [] ∨ part.length > 3 ∨ !part.all (fun digit => 48 ≤ digit && digit ≤ 57) then none
  else
    let value := part.foldl (fun n digit => n * 10 + (digit.toNat - 48)) 0
    if value ≤ 255 then some (BitVec.ofNat 8 value) else none

def dottedQuads : IpText where
  makeAddress value :=
    match (value.splitOn 46).map octet with
    | [some a, some b, some c, some d] => some (.v4 (a ++ b ++ c ++ d))
    | _ => none
  toText
    | .v4 bits => List.intercalate [46] ([24, 16, 8, 0].map fun shift => decimal (bits.toNat / 2 ^ shift % 256))
    | .v6 _ _ => []
  makeNetworkV4 _ := none
  makeNetworkV6 _ := none
  netmask network := BitVec.allOnes 32 <<< (32 - network.prefixLength)
  networkV4 network := network.address &&& BitVec.allOnes 32 <<< (32 - network.prefixLength)
  networkV6 network := network.address

def loopback : List IpNetwork := [.v4 ⟨BitVec.ofNat 32 0x7F000001, 32, by decide⟩]

def proxyAddress : Bytes := ofString "127.0.0.1"

def clientAddress : Bytes := ofString "198.51.100.10"

def forwardedFor (value : Bytes) : HeaderMap := [(ofString "X-Forwarded-For", value)]

theorem proxyHops_clientAddress : ProxyHops dottedQuads loopback clientAddress [] :=
  ⟨by decide +kernel, by decide +kernel, by decide +kernel, by simp⟩

theorem two_client_hops_change_nothing :
    resolveConnectionClientIp dottedQuads loopback
        (forwardedFor (chainText [ofString "10.0.0.1, 10.0.0.2 ", clientAddress])) (some proxyAddress) true =
        some (if AllHopsValid dottedQuads ((ofString "10.0.0.1, 10.0.0.2 ").splitOn 44) then trimAscii clientAddress
          else proxyAddress) ∧
      resolveConnectionClientIp dottedQuads loopback (forwardedFor (chainText [clientAddress]))
        (some proxyAddress) true =
        some (trimAscii clientAddress) :=
  client_address_behind_trusted_proxies (by decide +kernel) proxyHops_clientAddress (by decide +kernel)
    (by decide +kernel)

theorem empty_hop_shows_the_proxy :
    isTrustedProxySource dottedQuads loopback proxyAddress = true ∧
      ProxyHops dottedQuads loopback clientAddress [] ∧
      resolveConnectionClientIp dottedQuads loopback (forwardedFor (chainText [[], clientAddress])) (some proxyAddress)
        true = some proxyAddress ∧
      resolveConnectionClientIp dottedQuads loopback (forwardedFor (chainText [clientAddress])) (some proxyAddress)
        true = some clientAddress ∧
      proxyAddress ≠ clientAddress :=
  ⟨by decide +kernel, proxyHops_clientAddress, by decide +kernel, by decide +kernel, by decide +kernel⟩

end Sample

section Paths

def transcribePath : Bytes := ofString "/backend-api/transcribe"

def DeniesOutside (path : Bytes) : Prop :=
  ∀ (ip : IpText) (list : FirewallAllowlist) (headers : HeaderMap) (socketIp : Option Bytes)
    (config : FirewallFilterConfig), list.records ≠ [] →
    Outside ip list
      (resolveConnectionClientIp ip config.trustedProxyNetworks headers socketIp config.trustProxyHeaders) →
    (evaluateFirewallRequest ip list path headers socketIp config).allow = false ∧
      (evaluateFirewallRequest ip list path headers socketIp config).status = 403

theorem deniesOutside_of_protected {path : Bytes} (h : isFirewallProtectedPath path = true) : DeniesOutside path := by
  intro ip list headers socketIp config hrecords houtside
  have hallowed := isFirewallIpAllowed_outside hrecords houtside
  simp [evaluateFirewallRequest, h, hallowed]

theorem isProxyApiKeyProtectedPath_iff {path : Bytes} :
    isProxyApiKeyProtectedPath path = true ↔ isFirewallProtectedPath path = true ∨ path = transcribePath := by
  rw [isProxyApiKeyProtectedPath, isFirewallProtectedPath, transcribePath]
  split_ifs with hv1 hcodex
  · exact iff_of_true rfl (.inl rfl)
  · exact iff_of_true rfl (.inl hv1)
  · exact iff_of_true rfl (.inl rfl)
  · rw [decide_eq_true_eq]
    exact ⟨.inr, fun h => h.resolve_left hv1⟩

/-- Every path that needs an API key but one is behind the firewall. -/
theorem api_key_paths_behind_firewall_iff (path : Bytes) :
    (isProxyApiKeyProtectedPath path = true → isFirewallProtectedPath path = true ∧ DeniesOutside path) ↔
      path ≠ transcribePath := by
  constructor
  · rintro h rfl
    have hprotected : isFirewallProtectedPath transcribePath = true := (h (by decide)).1
    exact absurd hprotected (by decide)
  · intro hpath hkey
    have hprotected := (isProxyApiKeyProtectedPath_iff.mp hkey).resolve_right hpath
    exact ⟨hprotected, deniesOutside_of_protected hprotected⟩

def lockedDown : FirewallAllowlist := { records := [⟨1, ofString "10.20.30.40", []⟩] }

theorem transcribe_passes_the_firewall :
    isProxyApiKeyProtectedPath transcribePath = true ∧ isFirewallProtectedPath transcribePath = false ∧
      (evaluateFirewallRequest dottedQuads lockedDown transcribePath [] (some proxyAddress) {}).allow = true ∧
      (evaluateFirewallRequest dottedQuads lockedDown (ofString "/v1/audio/transcriptions") [] (some proxyAddress)
        {}).allow = false := by
  decide +kernel

end Paths

end Tightrope.Server
