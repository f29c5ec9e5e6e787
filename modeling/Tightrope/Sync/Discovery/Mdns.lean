import Tightrope.Core.IpAddress
import Tightrope.Sync.Discovery.PeerManager

namespace Tightrope.Sync.Discovery

open Bytes Tightrope.Core

structure ServiceAnnouncement where
  clusterName : Bytes
  siteId : UInt32
  endpoint : PeerEndpoint
  deriving DecidableEq

inductive MdnsRecord where
  | ptr (name target : Bytes)
  | srv (name host : Bytes) (port : UInt16)
  | txt (name : Bytes) (pairs : List (Bytes × Bytes))
  | a (name : Bytes) (address : BitVec 32)
  | aaaa (name : Bytes) (address : Vector UInt8 16)
  deriving DecidableEq

def MdnsRecord.name : MdnsRecord → Bytes
  | .ptr name _ | .srv name _ _ | .txt name _ | .a name _ | .aaaa name _ => name

structure ServiceRecords where
  serviceName : Bytes
  hostName : Bytes
  instanceName : Bytes
  ptrRecord : MdnsRecord
  additionalRecords : List MdnsRecord

section Names

def canonicalMdnsServiceName (serviceName : Bytes) : Bytes :=
  let service := if serviceName = [] then ofString "_tightrope-sync._tcp" else serviceName
  let service := if containsText service (ofString ".local") then service else service ++ ofString ".local"
  if service.getLast? = some dot then service else service ++ [dot]

def canonicalMdnsHostname (host : Bytes) (siteId : UInt32) (hostIsIpLiteral : Bool) : Bytes :=
  if hostIsIpLiteral then ofString "tightrope-site-" ++ decimal siteId.toNat ++ ofString ".local."
  else
    let result := if host = [] then ofString "tightrope-site-" ++ decimal siteId.toNat ++ ofString ".local" else host
    let result := if dot ∈ result then result else result ++ ofString ".local"
    if result.getLast? = some dot then result else result ++ [dot]

def trimMdnsTrailingDot (value : Bytes) : Bytes := if value.getLast? = some dot then value.dropLast else value

end Names

section Records

variable (makeAddress : Bytes → Option IpAddress)

def addressRecords (hostName : Bytes) : Option IpAddress → List MdnsRecord
  | some (.v4 bits) => [.a hostName bits]
  | some (.v6 bytes _) => [.aaaa hostName bytes]
  | none => []

def buildServiceRecords (rawServiceName : Bytes) (announcement : ServiceAnnouncement) : ServiceRecords :=
  let serviceName := canonicalMdnsServiceName rawServiceName
  let hostAddress := makeAddress announcement.endpoint.host
  let hostName := canonicalMdnsHostname announcement.endpoint.host announcement.siteId hostAddress.isSome
  let instanceName := ofString "site-" ++ decimal announcement.siteId.toNat ++ [dot] ++ serviceName
  { serviceName, hostName, instanceName
    ptrRecord := .ptr serviceName instanceName
    additionalRecords := [.srv instanceName hostName announcement.endpoint.port] ++
      addressRecords hostName hostAddress ++
      [.txt instanceName [(ofString "cluster", announcement.clusterName)],
        .txt instanceName [(ofString "site_id", decimal announcement.siteId.toNat)],
        .txt instanceName [(ofString "sync_port", decimal announcement.endpoint.port.toNat)]] }

def ServiceRecords.records (records : ServiceRecords) : List MdnsRecord :=
    records.ptrRecord :: records.additionalRecords

end Records

structure PendingPeer where
  instanceName : Bytes := []
  hostName : Bytes := []
  siteId : Option UInt32 := none
  syncPort : Option UInt16 := none
  srvPort : Option UInt16 := none
  clusterName : Bytes := []
  deriving DecidableEq

structure QueryContext where
  serviceName : Bytes
  peersByInstance : FlatMap Bytes PendingPeer := .empty
  hostAddressByName : FlatMap Bytes Bytes := .empty

section Browser

-- `inet_ntop`
variable (ntop : IpAddress → Bytes)

def parseU32 (value : Bytes) : Option UInt32 := (parsePositiveBelow (2 ^ 32) value).map UInt32.ofNat

def parseU16 (value : Bytes) : Option UInt16 := (parsePositiveBelow (2 ^ 16) value).map UInt16.ofNat

def PendingPeer.readPair (pending : PendingPeer) (pair : Bytes × Bytes) : PendingPeer :=
  let key := toLowerAscii pair.1
  if key = ofString "cluster" then { pending with clusterName := pair.2 }
  else if key = ofString "site_id" then { pending with siteId := parseU32 pair.2 }
  else if key = ofString "sync_port" then { pending with syncPort := parseU16 pair.2 }
  else pending

def QueryContext.pending (context : QueryContext) (instanceName : Bytes) : PendingPeer :=
  (context.peersByInstance.find? instanceName).getD {}

def QueryContext.notePeer (context : QueryContext) (instanceName : Bytes) (f : PendingPeer → PendingPeer) :
    QueryContext :=
  { context with
    peersByInstance := context.peersByInstance.insert instanceName
      (f { context.pending instanceName with instanceName }) }

def QueryContext.noteAddress (context : QueryContext) (hostName ip : Bytes) : QueryContext :=
  if ip = [] then context
  else { context with hostAddressByName := context.hostAddressByName.insert hostName ip }

def QueryContext.handleRecord (context : QueryContext) (record : MdnsRecord) : QueryContext :=
  let entryName := toLowerAscii record.name
  if entryName = [] then context
  else match record with
  | .ptr _ target =>
    if target = [] ∨ entryName ≠ context.serviceName then context else context.notePeer (toLowerAscii target) id
  | .srv _ host port => context.notePeer entryName fun pending =>
    { pending with hostName := host, srvPort := some port }
  | .txt _ pairs => context.notePeer entryName fun pending => pairs.foldl PendingPeer.readPair pending
  | .a _ address => context.noteAddress entryName (ntop (.v4 address))
  | .aaaa _ address => context.noteAddress entryName (ntop (.v6 address 0))

def QueryContext.resolvedHost (context : QueryContext) (pending : PendingPeer) : Bytes :=
  ((context.hostAddressByName.find? (toLowerAscii pending.hostName)).filter (· ≠ [])).getD
    (trimMdnsTrailingDot pending.hostName)

def QueryContext.resolve (context : QueryContext) (seenUnixMs : UInt64) (pending : PendingPeer) :
    Option DiscoveredPeer :=
  pending.siteId.bind fun siteId =>
    let host := context.resolvedHost pending
    let port := pending.syncPort.getD (pending.srvPort.getD 0)
    if pending.clusterName = [] ∨ host = [] ∨ port = 0 then none
    else some ⟨pending.clusterName, siteId, ⟨host, port⟩, seenUnixMs⟩

def registeredPeers (seenUnixMs : UInt64) (registered : List ServiceAnnouncement) : List DiscoveredPeer :=
  registered.map fun announcement => ⟨announcement.clusterName, announcement.siteId, announcement.endpoint, seenUnixMs⟩

-- `query` is what the socket received until the deadline, or nothing where the query could not be sent. The count that
-- the source returns is left out, nothing reads it.
def PeerManager.discoverOnce (isAddress : Bytes → Bool) (m : PeerManager) (rawServiceName : Bytes) (seenUnixMs : UInt64)
    (query : Option (List MdnsRecord)) (registered : List ServiceAnnouncement) : PeerManager :=
  match query with
  | none => m.refreshDiscovery isAddress (registeredPeers seenUnixMs registered)
  | some records =>
    let serviceName := toLowerAscii (canonicalMdnsServiceName rawServiceName)
    let context := records.foldl (QueryContext.handleRecord ntop) { serviceName }
    let resolved := context.peersByInstance.entries.filterMap fun peer => context.resolve seenUnixMs peer.2
    m.refreshDiscovery isAddress (resolved ++ registeredPeers seenUnixMs registered)

end Browser

end Tightrope.Sync.Discovery
