import Tightrope.Core.HostPort
import Tightrope.Library.FlatMap

namespace Tightrope.Sync.Discovery

open Bytes Tightrope.Core

abbrev PeerEndpoint := HostPortEndpoint

structure PeerRecord where
  siteId : UInt32 := 0
  endpoint : PeerEndpoint
  manual : Bool := false
  seenUnixMs : UInt64 := 0
  deriving DecidableEq

structure DiscoveredPeer where
  clusterName : Bytes
  siteId : UInt32 := 0
  endpoint : PeerEndpoint
  seenUnixMs : UInt64 := 0
  deriving DecidableEq

structure SeenPeer where
  endpoint : PeerEndpoint
  seenUnixMs : UInt64 := 0
  deriving DecidableEq

structure PeerManager where
  clusterName : Bytes
  discoveredPeers : FlatMap UInt32 SeenPeer := .empty
  manualPeers : FlatMap UInt32 SeenPeer := .empty
  deriving DecidableEq

namespace PeerManager

variable (isAddress : Bytes → Bool) (m : PeerManager)

def addManualPeer (siteId : UInt32) (endpoint : PeerEndpoint) (nowMs : UInt64) : PeerManager × Bool :=
  if siteId = 0 ∨ isValidHostPort isAddress endpoint = false then (m, false)
  else ({ m with manualPeers := m.manualPeers.insert siteId ⟨endpoint, nowMs⟩ }, true)

def removePeer (siteId : UInt32) : PeerManager × Bool :=
  ({ m with manualPeers := m.manualPeers.erase siteId }, (m.manualPeers.find? siteId).isSome)

-- `MdnsBrowser::ingest`
def ingest (peer : DiscoveredPeer) : PeerManager :=
  if peer.clusterName ≠ m.clusterName ∨ peer.siteId = 0 ∨ isValidHostPort isAddress peer.endpoint = false then m
  else if ((m.discoveredPeers.find? peer.siteId).any fun old => peer.seenUnixMs < old.seenUnixMs) then m
  else { m with discoveredPeers := m.discoveredPeers.insert peer.siteId ⟨peer.endpoint, peer.seenUnixMs⟩ }

-- `found` is what one round of discovery resolves.
def refreshDiscovery (found : List DiscoveredPeer) : PeerManager := found.foldl (ingest isAddress) m

def pruneDiscovered (cutoffUnixMs : UInt64) : PeerManager :=
  { m with discoveredPeers := m.discoveredPeers.filter fun _ peer => !(peer.seenUnixMs < cutoffUnixMs) }

def peers : FlatMap UInt32 PeerRecord :=
  (m.discoveredPeers.map fun siteId peer => ⟨siteId, peer.endpoint, false, peer.seenUnixMs⟩).mergeWith
    (fun _ record => record) (m.manualPeers.map fun siteId peer => ⟨siteId, peer.endpoint, true, peer.seenUnixMs⟩)

def proposedBefore (lhs rhs : PeerRecord) : Bool :=
  if lhs.manual ≠ rhs.manual then lhs.manual && !rhs.manual
  else if lhs.seenUnixMs ≠ rhs.seenUnixMs then lhs.seenUnixMs > rhs.seenUnixMs
  else lhs.siteId < rhs.siteId

def membershipProposals : List PeerRecord :=
  (m.peers.entries.map Prod.snd).mergeSort fun lhs rhs => !proposedBefore rhs lhs

def endpoint? (siteId : UInt32) : Option PeerEndpoint := (m.peers.find? siteId).map PeerRecord.endpoint

end PeerManager

section Lemmas

variable {isAddress : Bytes → Bool} {m : PeerManager} {siteId other : UInt32} {endpoint : PeerEndpoint} {nowMs : UInt64}
  {record : PeerRecord}

theorem find?_peers : m.peers.find? siteId =
    ((m.manualPeers.find? siteId).map fun peer => (⟨siteId, peer.endpoint, true, peer.seenUnixMs⟩ : PeerRecord)).or
      ((m.discoveredPeers.find? siteId).map fun peer => ⟨siteId, peer.endpoint, false, peer.seenUnixMs⟩) := by
  rw [PeerManager.peers, FlatMap.find?_mergeWith, FlatMap.find?_map, FlatMap.find?_map]
  cases m.manualPeers.find? siteId <;> rfl

theorem endpoint?_eq : m.endpoint? siteId =
    ((m.manualPeers.find? siteId).or (m.discoveredPeers.find? siteId)).map SeenPeer.endpoint := by
  rw [PeerManager.endpoint?, find?_peers]
  cases m.manualPeers.find? siteId with
  | none => cases m.discoveredPeers.find? siteId <;> rfl
  | some peer => rfl

theorem siteId_of_find?_peers (h : m.peers.find? siteId = some record) : record.siteId = siteId := by
  rw [find?_peers] at h
  obtain h | ⟨-, h⟩ := Option.or_eq_some_iff.mp h
  · obtain ⟨peer, -, rfl⟩ := Option.map_eq_some_iff.mp h
    rfl
  · obtain ⟨peer, -, rfl⟩ := Option.map_eq_some_iff.mp h
    rfl

theorem mem_membershipProposals : record ∈ m.membershipProposals ↔ m.peers.find? record.siteId = some record := by
  rw [PeerManager.membershipProposals, List.mem_mergeSort, List.mem_map]
  constructor
  · rintro ⟨⟨siteId, found⟩, hmem, rfl⟩
    have hfound := FlatMap.mem_entries.mp hmem
    rwa [siteId_of_find?_peers hfound]
  · intro h
    exact ⟨(record.siteId, record), FlatMap.mem_entries.mpr h, rfl⟩

theorem nodup_membershipProposals : (m.membershipProposals.map PeerRecord.siteId).Nodup := by
  have hperm : m.membershipProposals.Perm (m.peers.entries.map Prod.snd) := List.mergeSort_perm _ _
  rw [(hperm.map PeerRecord.siteId).nodup_iff, List.map_map]
  have hkeys : m.peers.entries.map (PeerRecord.siteId ∘ Prod.snd) = m.peers.entries.map Prod.fst := by
    apply List.map_congr_left
    rintro ⟨siteId, found⟩ hmem
    exact siteId_of_find?_peers (FlatMap.mem_entries.mp hmem)
  rw [hkeys]
  exact (List.pairwise_map.mpr m.peers.sorted).imp fun h => ne_of_lt h

theorem endpoint?_removePeer : (m.removePeer siteId).1.endpoint? other =
    if other = siteId then (m.discoveredPeers.find? other).map SeenPeer.endpoint else m.endpoint? other := by
  rw [endpoint?_eq, endpoint?_eq, PeerManager.removePeer, FlatMap.find?_erase]
  split_ifs <;> rfl

theorem removePeer_addManualPeer (h : (m.addManualPeer isAddress siteId endpoint nowMs).2 = true) :
    ((m.addManualPeer isAddress siteId endpoint nowMs).1.removePeer siteId).1 = (m.removePeer siteId).1 := by
  rw [PeerManager.addManualPeer] at h ⊢
  by_cases hrejected : siteId = 0 ∨ isValidHostPort isAddress endpoint = false
  · rw [if_pos hrejected] at h
    cases h
  · rw [if_neg hrejected]
    exact congrArg (fun peers => { m with manualPeers := peers }) (FlatMap.erase_insert _ _ _)

end Lemmas

end Tightrope.Sync.Discovery
