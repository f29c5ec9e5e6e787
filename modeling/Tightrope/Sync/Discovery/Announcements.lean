import Tightrope.Library.Loops
import Tightrope.Sync.Discovery.Mdns

namespace Tightrope.Sync.Discovery

open Bytes Tightrope.Core LastWrite

def unscoped : IpAddress → IpAddress
  | .v4 bits => .v4 bits
  | .v6 bytes _ => .v6 bytes 0

/-- The address that is printed is read again. -/
structure AddressTexts (makeAddress : Bytes → Option IpAddress) (ntop : IpAddress → Bytes) : Prop where
  empty : makeAddress [] = none
  printed : ∀ address, makeAddress (ntop (unscoped address)) = some (unscoped address)

theorem AddressTexts.ntop_ne_nil {makeAddress : Bytes → Option IpAddress} {ntop : IpAddress → Bytes}
    (h : AddressTexts makeAddress ntop) (address : IpAddress) : ntop (unscoped address) ≠ [] := by
  intro hnil
  have hprinted := h.printed address
  rw [hnil, h.empty] at hprinted
  cases hprinted

section Definitions

variable (makeAddress : Bytes → Option IpAddress) (ntop : IpAddress → Bytes)

structure ServiceAnnouncement.WellFormed (announcement : ServiceAnnouncement) : Prop where
  clusterName : announcement.clusterName ≠ []
  siteId : announcement.siteId ≠ 0
  port : announcement.endpoint.port ≠ 0
  literal : (makeAddress announcement.endpoint.host).isSome = true

/-- The announcements on a network. -/
structure Network where
  announcements : List ServiceAnnouncement
  wellFormed : ∀ a ∈ announcements, a.WellFormed makeAddress
  distinct : ∀ a ∈ announcements, ∀ b ∈ announcements, a.clusterName = b.clusterName → a.siteId = b.siteId → a = b

def SameEndpoint (endpoint endpoint' : PeerEndpoint) : Prop :=
  (makeAddress endpoint.host).map unscoped = (makeAddress endpoint'.host).map unscoped ∧ endpoint.port = endpoint'.port

/-- The peers of the browser are those announced for its cluster, at their addresses and ports. -/
structure DiscoversExactly (m : PeerManager) (announcements : List ServiceAnnouncement) : Prop where
  complete : ∀ a ∈ announcements, a.clusterName = m.clusterName →
    ∃ peer, m.discoveredPeers.find? a.siteId = some peer ∧ SameEndpoint makeAddress peer.endpoint a.endpoint
  sound : ∀ siteId peer, m.discoveredPeers.find? siteId = some peer →
    ∃ a ∈ announcements, a.clusterName = m.clusterName ∧ a.siteId = siteId ∧
      SameEndpoint makeAddress peer.endpoint a.endpoint

variable {makeAddress}

def Network.Sends (network : Network makeAddress) (rawServiceName : Bytes) (record : MdnsRecord) : Prop :=
  ∃ a ∈ network.announcements, record ∈ (buildServiceRecords makeAddress rawServiceName a).records

def Network.Arrives (network : Network makeAddress) (rawServiceName : Bytes) (records : List MdnsRecord) : Prop :=
  ∀ record, record ∈ records ↔ network.Sends rawServiceName record

end Definitions

section Names

def siteInstance (rawServiceName : Bytes) (siteId : UInt32) : Bytes :=
  ofString "site-" ++ decimal siteId.toNat ++ [dot] ++ canonicalMdnsServiceName rawServiceName

def siteHost (siteId : UInt32) : Bytes := ofString "tightrope-site-" ++ decimal siteId.toNat ++ ofString ".local."

def instanceKey (rawServiceName : Bytes) (siteId : UInt32) : Bytes := toLowerAscii (siteInstance rawServiceName siteId)

def hostKey (siteId : UInt32) : Bytes := toLowerAscii (siteHost siteId)

theorem toLowerAscii_append (x y : Bytes) : toLowerAscii (x ++ y) = toLowerAscii x ++ toLowerAscii y := List.map_append

theorem toLowerAscii_decimal (n : ℕ) : toLowerAscii (decimal n) = decimal n := by
  have hdigit : ∀ c ∈ decimal n, toLower c = id c := by
    intro c hc
    have hle := (isDigit_of_mem_decimal hc).2
    rw [toLower, if_neg]
    · rfl
    · rintro ⟨hupper, -⟩
      exact absurd (UInt8.le_trans hupper hle) (by decide)
  exact (List.map_congr_left hdigit).trans (List.map_id _)

theorem toNat_injective {s t : UInt32} (h : decimal s.toNat = decimal t.toNat) : s = t :=
  UInt32.toNat_inj.mp (decimal_injective h)

theorem instanceKey_injective (rawServiceName : Bytes) : Function.Injective (instanceKey rawServiceName) := by
  intro s t h
  simp only [instanceKey, siteInstance, toLowerAscii_append, toLowerAscii_decimal, List.append_assoc] at h
  exact toNat_injective (List.append_cancel_right (List.append_cancel_left h))

theorem hostKey_injective : Function.Injective hostKey := by
  intro s t h
  simp only [hostKey, siteHost, toLowerAscii_append, toLowerAscii_decimal, List.append_assoc] at h
  exact toNat_injective (List.append_cancel_right (List.append_cancel_left h))

theorem instanceKey_ne_nil (rawServiceName : Bytes) (siteId : UInt32) : instanceKey rawServiceName siteId ≠ [] := by
  simp [instanceKey, siteInstance, toLowerAscii_append, toLowerAscii_decimal, decimal_ne_nil]

theorem hostKey_ne_nil (siteId : UInt32) : hostKey siteId ≠ [] := by
  simp [hostKey, siteHost, toLowerAscii_append, toLowerAscii_decimal, decimal_ne_nil]

end Names

inductive PeerField where
  | host
  | cluster
  | siteId
  | port

def PendingPeer.told (a : ServiceAnnouncement) (pending : PendingPeer) : PeerField → PendingPeer
  | .host => { pending with hostName := siteHost a.siteId, srvPort := some a.endpoint.port }
  | .cluster => { pending with clusterName := a.clusterName }
  | .siteId => { pending with siteId := some a.siteId }
  | .port => { pending with syncPort := some a.endpoint.port }

section Records

variable {makeAddress : Bytes → Option IpAddress} {ntop : IpAddress → Bytes} {rawServiceName : Bytes}
  {context : QueryContext} {a : ServiceAnnouncement} {record : MdnsRecord} {siteId : UInt32}

theorem pending_notePeer (context : QueryContext) (name other : Bytes) (f : PendingPeer → PendingPeer) :
    (context.notePeer name f).pending other =
      if other = name then f { context.pending name with instanceName := name } else context.pending other := by
  rw [QueryContext.pending, QueryContext.notePeer, FlatMap.find?_insert]
  split_ifs <;> rfl

theorem find?_of_siteId {name : Bytes} (h : (context.pending name).siteId = some siteId) :
    context.peersByInstance.find? name = some (context.pending name) := by
  unfold QueryContext.pending at h ⊢
  cases hfind : context.peersByInstance.find? name with
  | none =>
    rw [hfind] at h
    cases h
  | some pending => rfl

theorem pending_noteAddress (context : QueryContext) (name ip other : Bytes) :
    (context.noteAddress name ip).pending other = context.pending other := by
  unfold QueryContext.noteAddress
  split_ifs <;> rfl

theorem hostAddress_noteAddress {ip : Bytes} (hip : ip ≠ []) (context : QueryContext) (name other : Bytes) :
    (context.noteAddress name ip).hostAddressByName.find? other =
      if other = name then some ip else context.hostAddressByName.find? other := by
  rw [QueryContext.noteAddress, if_neg hip]
  simp only [FlatMap.find?_insert]
  split_ifs <;> rfl

theorem parseU32_decimal (h : siteId ≠ 0) : parseU32 (decimal siteId.toNat) = some siteId := by
  have hpos : 0 < siteId.toNat := Nat.pos_of_ne_zero fun hzero => h (UInt32.toNat_inj.mp hzero)
  have hparse := parsePositiveBelow_decimal hpos siteId.toNat_lt
  rw [parseU32, hparse, Option.map_some, UInt32.ofNat_toNat]

theorem parseU16_decimal {port : UInt16} (h : port ≠ 0) : parseU16 (decimal port.toNat) = some port := by
  have hpos : 0 < port.toNat := Nat.pos_of_ne_zero fun hzero => h (UInt16.toNat_inj.mp hzero)
  have hparse := parsePositiveBelow_decimal hpos port.toNat_lt
  rw [parseU16, hparse, Option.map_some, UInt16.ofNat_toNat]

section Kinds

variable {name host : Bytes}

theorem handleRecord_ptr (context : QueryContext) (name target : Bytes) :
    context.handleRecord ntop (.ptr name target) = context ∨
      context.handleRecord ntop (.ptr name target) = context.notePeer (toLowerAscii target) id := by
  unfold QueryContext.handleRecord
  simp only
  split
  · exact .inl rfl
  · split
    · exact .inl rfl
    · exact .inr rfl

theorem handleRecord_srv (hname : toLowerAscii name ≠ []) (context : QueryContext) (port : UInt16) :
    context.handleRecord ntop (.srv name host port) = context.notePeer (toLowerAscii name)
      fun pending => { pending with hostName := host, srvPort := some port } := if_neg hname

theorem handleRecord_txt (hname : toLowerAscii name ≠ []) (context : QueryContext) (pair : Bytes × Bytes) :
    context.handleRecord ntop (.txt name [pair]) = context.notePeer (toLowerAscii name)
      fun pending => pending.readPair pair := if_neg hname

theorem handleRecord_address (hname : toLowerAscii name ≠ []) (context : QueryContext) {address : IpAddress}
    {record : MdnsRecord} (hrecord : record ∈ addressRecords name (some address)) :
    context.handleRecord ntop record = context.noteAddress (toLowerAscii name) (ntop (unscoped address)) := by
  cases address with
  | v4 bits =>
    obtain rfl := List.mem_singleton.mp hrecord
    exact if_neg hname
  | v6 bytes scopeId =>
    obtain rfl := List.mem_singleton.mp hrecord
    exact if_neg hname

end Kinds

def fieldRecord (rawServiceName : Bytes) (a : ServiceAnnouncement) : PeerField → MdnsRecord
  | .host => .srv (siteInstance rawServiceName a.siteId) (siteHost a.siteId) a.endpoint.port
  | .cluster => .txt (siteInstance rawServiceName a.siteId) [(ofString "cluster", a.clusterName)]
  | .siteId => .txt (siteInstance rawServiceName a.siteId) [(ofString "site_id", decimal a.siteId.toNat)]
  | .port => .txt (siteInstance rawServiceName a.siteId) [(ofString "sync_port", decimal a.endpoint.port.toNat)]

theorem records_eq {address : IpAddress} (haddress : makeAddress a.endpoint.host = some address) :
    (buildServiceRecords makeAddress rawServiceName a).records =
      .ptr (canonicalMdnsServiceName rawServiceName) (siteInstance rawServiceName a.siteId) ::
        ([fieldRecord rawServiceName a .host] ++ addressRecords (siteHost a.siteId) (some address) ++
          [fieldRecord rawServiceName a .cluster, fieldRecord rawServiceName a .siteId,
            fieldRecord rawServiceName a .port]) := by
  simp only [ServiceRecords.records, buildServiceRecords, haddress]
  rfl

theorem handleRecord_field (ha : a.WellFormed makeAddress) (context : QueryContext) (field : PeerField) :
    context.handleRecord ntop (fieldRecord rawServiceName a field) =
      context.notePeer (instanceKey rawServiceName a.siteId) fun pending => pending.told a field := by
  have hname := instanceKey_ne_nil rawServiceName a.siteId
  cases field with
  | host => exact handleRecord_srv hname context a.endpoint.port
  | cluster => exact handleRecord_txt hname context _
  | siteId =>
    have hread : ∀ pending : PendingPeer, pending.readPair (ofString "site_id", decimal a.siteId.toNat) =
        pending.told a .siteId := fun pending =>
      congrArg (fun siteId => { pending with siteId }) (parseU32_decimal ha.siteId)
    rw [fieldRecord, handleRecord_txt hname, funext hread]
    rfl
  | port =>
    have hread : ∀ pending : PendingPeer, pending.readPair (ofString "sync_port", decimal a.endpoint.port.toNat) =
        pending.told a .port := fun pending =>
      congrArg (fun port => { pending with syncPort := port }) (parseU16_decimal ha.port)
    rw [fieldRecord, handleRecord_txt hname, funext hread]
    rfl

theorem handleRecord_of_mem (ha : a.WellFormed makeAddress)
    (h : record ∈ (buildServiceRecords makeAddress rawServiceName a).records) (context : QueryContext) :
    context.handleRecord ntop record = context ∨
      context.handleRecord ntop record = context.notePeer (instanceKey rawServiceName a.siteId) id ∨
      (∃ field, context.handleRecord ntop record =
        context.notePeer (instanceKey rawServiceName a.siteId) fun pending => pending.told a field) ∨
      ∃ address, makeAddress a.endpoint.host = some address ∧
        context.handleRecord ntop record = context.noteAddress (hostKey a.siteId) (ntop (unscoped address)) := by
  obtain ⟨address, haddress⟩ := Option.isSome_iff_exists.mp ha.literal
  have hfield : ∀ field, record = fieldRecord rawServiceName a field →
      ∃ field, context.handleRecord ntop record =
        context.notePeer (instanceKey rawServiceName a.siteId) fun pending => pending.told a field := by
    rintro field rfl
    exact ⟨field, handleRecord_field ha context field⟩
  rw [records_eq haddress, List.mem_cons, List.mem_append, List.mem_append, List.mem_singleton] at h
  obtain rfl | (hhost | haddr) | htxt := h
  · obtain hkept | hnoted := handleRecord_ptr context (canonicalMdnsServiceName rawServiceName)
      (siteInstance rawServiceName a.siteId)
    · exact .inl hkept
    · exact .inr (.inl hnoted)
  · exact .inr (.inr (.inl (hfield .host hhost)))
  · exact .inr (.inr (.inr ⟨address, haddress, handleRecord_address (hostKey_ne_nil a.siteId) context haddr⟩))
  · simp only [List.mem_cons, List.not_mem_nil, or_false] at htxt
    obtain hcluster | hsite | hport := htxt
    · exact .inr (.inr (.inl (hfield .cluster hcluster)))
    · exact .inr (.inr (.inl (hfield .siteId hsite)))
    · exact .inr (.inr (.inl (hfield .port hport)))

theorem fieldRecord_mem (ha : a.WellFormed makeAddress) (field : PeerField) :
    fieldRecord rawServiceName a field ∈ (buildServiceRecords makeAddress rawServiceName a).records := by
  obtain ⟨address, haddress⟩ := Option.isSome_iff_exists.mp ha.literal
  rw [records_eq haddress]
  cases field <;> simp

end Records

section Arrivals

variable {V : Type} {makeAddress : Bytes → Option IpAddress} {ntop : IpAddress → Bytes} {rawServiceName : Bytes}
  {a : ServiceAnnouncement} {records : List MdnsRecord} {view : PendingPeer → V} {v : V}

structure Tells (a : ServiceAnnouncement) (view : PendingPeer → V) (v : V) : Prop where
  unnamed : ∀ (pending : PendingPeer) instanceName, view { pending with instanceName } = view pending
  told : ∀ (pending : PendingPeer) field, view (pending.told a field) = v ∨ view (pending.told a field) = view pending
  field : ∃ field, ∀ pending : PendingPeer, view (pending.told a field) = v

theorem tells_cluster (a : ServiceAnnouncement) : Tells a PendingPeer.clusterName a.clusterName :=
  ⟨fun _ _ => rfl, fun _ field => by cases field <;> simp [PendingPeer.told], .cluster, fun _ => rfl⟩

theorem tells_siteId (a : ServiceAnnouncement) : Tells a PendingPeer.siteId (some a.siteId) :=
  ⟨fun _ _ => rfl, fun _ field => by cases field <;> simp [PendingPeer.told], .siteId, fun _ => rfl⟩

theorem tells_port (a : ServiceAnnouncement) : Tells a PendingPeer.syncPort (some a.endpoint.port) :=
  ⟨fun _ _ => rfl, fun _ field => by cases field <;> simp [PendingPeer.told], .port, fun _ => rfl⟩

theorem tells_host (a : ServiceAnnouncement) : Tells a PendingPeer.hostName (siteHost a.siteId) :=
  ⟨fun _ _ => rfl, fun _ field => by cases field <;> simp [PendingPeer.told], .host, fun _ => rfl⟩

structure PendingFrom (announced : ServiceAnnouncement → Prop) (siteId : UInt32) (pending : PendingPeer) : Prop where
  site : ∀ told, pending.siteId = some told → told = siteId
  cluster : pending.clusterName ≠ [] → ∃ b, announced b ∧ b.siteId = siteId ∧ b.clusterName = pending.clusterName

def QueryContext.FromAnnounced (announced : ServiceAnnouncement → Prop) (rawServiceName : Bytes)
    (context : QueryContext) : Prop :=
  ∀ name pending, context.peersByInstance.find? name = some pending →
    ∃ a, announced a ∧ name = instanceKey rawServiceName a.siteId ∧ PendingFrom announced a.siteId pending

def OnlyFrom (makeAddress : Bytes → Option IpAddress) (rawServiceName : Bytes) (a : ServiceAnnouncement)
    (records : List MdnsRecord) : Prop :=
  ∀ record ∈ records, ∃ b : ServiceAnnouncement, b.WellFormed makeAddress ∧
    record ∈ (buildServiceRecords makeAddress rawServiceName b).records ∧ (b.siteId = a.siteId → b = a)

theorem pending_settles (ntop : IpAddress → Bytes) (ha : a.WellFormed makeAddress) (htells : Tells a view v)
    (honly : OnlyFrom makeAddress rawServiceName a records)
    (hall : (buildServiceRecords makeAddress rawServiceName a).records ⊆ records) (context : QueryContext) :
    view ((records.foldl (QueryContext.handleRecord ntop) context).pending (instanceKey rawServiceName a.siteId)) =
      v := by
  obtain ⟨field, hfield⟩ := htells.field
  apply foldl_settles (QueryContext.handleRecord ntop)
    (fun context => view (context.pending (instanceKey rawServiceName a.siteId))) fun _ => True
  · exact fun _ _ _ _ => trivial
  · intro context _ record hrecord
    obtain ⟨b, hb, hmem, honly⟩ := honly record hrecord
    have hother : ∀ f, b ≠ a → (context.notePeer (instanceKey rawServiceName b.siteId) f).pending
        (instanceKey rawServiceName a.siteId) = context.pending (instanceKey rawServiceName a.siteId) := by
      intro f hne
      rw [pending_notePeer, if_neg fun heq => hne (honly (instanceKey_injective _ heq).symm)]
    obtain hkept | hnoted | ⟨told, htold⟩ | ⟨address, -, haddress⟩ := handleRecord_of_mem hb hmem context
    · exact .inr (by rw [hkept])
    · right
      rw [hnoted]
      by_cases hba : b = a
      · rw [hba, pending_notePeer, if_pos rfl]
        exact htells.unnamed _ _
      · rw [hother id hba]
    · rw [htold]
      by_cases hba : b = a
      · rw [hba, pending_notePeer, if_pos rfl]
        obtain hwritten | hsame := htells.told { context.pending (instanceKey rawServiceName a.siteId) with
          instanceName := instanceKey rawServiceName a.siteId } told
        · exact .inl hwritten
        · exact .inr (hsame.trans (htells.unnamed _ _))
      · exact .inr (by rw [hother _ hba])
    · exact .inr (by rw [haddress, pending_noteAddress])
  · refine ⟨_, hall (fieldRecord_mem ha field), ?_⟩
    intro context _
    rw [handleRecord_field ha context field, pending_notePeer, if_pos rfl]
    exact hfield _
  · trivial

theorem hostAddress_settles (htexts : AddressTexts makeAddress ntop) {address : IpAddress}
    (haddress : makeAddress a.endpoint.host = some address) (honly : OnlyFrom makeAddress rawServiceName a records)
    (hall : (buildServiceRecords makeAddress rawServiceName a).records ⊆ records) (context : QueryContext) :
    (records.foldl (QueryContext.handleRecord ntop) context).hostAddressByName.find? (hostKey a.siteId) =
      some (ntop (unscoped address)) := by
  have hnonempty := htexts.ntop_ne_nil
  apply foldl_settles (QueryContext.handleRecord ntop)
    (fun context => context.hostAddressByName.find? (hostKey a.siteId)) fun _ => True
  · exact fun _ _ _ _ => trivial
  · intro context _ record hrecord
    obtain ⟨b, hb, hmem, honly⟩ := honly record hrecord
    obtain hkept | hnoted | ⟨told, htold⟩ | ⟨address', haddress', hnoted⟩ := handleRecord_of_mem hb hmem context
    · exact .inr (by rw [hkept])
    · exact .inr (by rw [hnoted]; rfl)
    · exact .inr (by rw [htold]; rfl)
    · rw [hnoted, hostAddress_noteAddress (hnonempty _)]
      by_cases hsite : hostKey a.siteId = hostKey b.siteId
      · have hba := honly (hostKey_injective hsite).symm
        rw [hba, haddress] at haddress'
        obtain rfl := Option.some.inj haddress'
        exact .inl (if_pos hsite)
      · exact .inr (if_neg hsite)
  · obtain ⟨record, hrecord⟩ : ∃ record, record ∈ addressRecords (siteHost a.siteId) (some address) := by
      cases address with
      | v4 bits => exact ⟨_, List.mem_singleton_self _⟩
      | v6 bytes scopeId => exact ⟨_, List.mem_singleton_self _⟩
    refine ⟨record, hall ?_, ?_⟩
    · rw [records_eq haddress]
      simp [hrecord]
    · intro context _
      rw [handleRecord_address (hostKey_ne_nil a.siteId) context hrecord]
      exact (hostAddress_noteAddress (hnonempty _) _ _ _).trans (if_pos rfl)
  · trivial

theorem resolve_settles (htexts : AddressTexts makeAddress ntop) (ha : a.WellFormed makeAddress) {address : IpAddress}
    (haddress : makeAddress a.endpoint.host = some address) (honly : OnlyFrom makeAddress rawServiceName a records)
    (hall : (buildServiceRecords makeAddress rawServiceName a).records ⊆ records) (context : QueryContext)
    (seenUnixMs : UInt64) :
    let settled := records.foldl (QueryContext.handleRecord ntop) context
    settled.resolve seenUnixMs (settled.pending (instanceKey rawServiceName a.siteId)) =
      some ⟨a.clusterName, a.siteId, ⟨ntop (unscoped address), a.endpoint.port⟩, seenUnixMs⟩ := by
  intro settled
  have hcluster : (settled.pending _).clusterName = a.clusterName :=
    pending_settles ntop ha (tells_cluster a) honly hall context
  have hsite : (settled.pending _).siteId = some a.siteId := pending_settles ntop ha (tells_siteId a) honly hall context
  have hport : (settled.pending _).syncPort = some a.endpoint.port :=
    pending_settles ntop ha (tells_port a) honly hall context
  have hhost : (settled.pending _).hostName = siteHost a.siteId :=
    pending_settles ntop ha (tells_host a) honly hall context
  have haddr : settled.hostAddressByName.find? (hostKey a.siteId) = some (ntop (unscoped address)) :=
    hostAddress_settles htexts haddress honly hall context
  have hresolved : settled.resolvedHost (settled.pending (instanceKey rawServiceName a.siteId)) =
      ntop (unscoped address) := by
    rw [QueryContext.resolvedHost, hhost]
    change ((settled.hostAddressByName.find? (hostKey a.siteId)).filter _).getD _ = _
    have hkeep : decide (ntop (unscoped address) ≠ []) = true := decide_eq_true (htexts.ntop_ne_nil address)
    rw [haddr, Option.filter_some, if_pos hkeep]
    rfl
  rw [QueryContext.resolve, hsite, Option.bind_some]
  simp only [hcluster, hport, hresolved, Option.getD_some]
  rw [if_neg]
  rintro (hnil | hnil | hzero)
  · exact ha.clusterName hnil
  · exact htexts.ntop_ne_nil _ hnil
  · exact ha.port hzero

theorem pendingFrom_told {announced : ServiceAnnouncement → Prop} {pending : PendingPeer} (ha : announced a)
    (h : PendingFrom announced a.siteId pending) (field : PeerField) :
    PendingFrom announced a.siteId (pending.told a field) := by
  cases field with
  | host => exact ⟨h.site, h.cluster⟩
  | cluster => exact ⟨h.site, fun _ => ⟨a, ha, rfl, rfl⟩⟩
  | siteId => exact ⟨fun siteId hsite => (Option.some.inj hsite).symm, h.cluster⟩
  | port => exact ⟨h.site, h.cluster⟩

theorem fromAnnounced_notePeer {announced : ServiceAnnouncement → Prop} {context : QueryContext} (ha : announced a)
    (h : context.FromAnnounced announced rawServiceName) {f : PendingPeer → PendingPeer}
    (hf : ∀ pending, PendingFrom announced a.siteId pending → PendingFrom announced a.siteId (f pending)) :
    (context.notePeer (instanceKey rawServiceName a.siteId) f).FromAnnounced announced rawServiceName := by
  intro name pending hpending
  rw [QueryContext.notePeer, FlatMap.find?_insert] at hpending
  split_ifs at hpending with hname
  · obtain rfl := Option.some.inj hpending
    refine ⟨a, ha, hname, hf _ ?_⟩
    rw [QueryContext.pending]
    cases hfound : context.peersByInstance.find? (instanceKey rawServiceName a.siteId) with
    | none => exact ⟨nofun, fun hne => absurd rfl hne⟩
    | some found =>
      obtain ⟨b, -, hkey, hfrom⟩ := h _ found hfound
      rw [instanceKey_injective rawServiceName hkey]
      exact ⟨hfrom.site, hfrom.cluster⟩
  · exact h name pending hpending

theorem fromAnnounced_foldl {announced : ServiceAnnouncement → Prop}
    (hwell : ∀ a, announced a → a.WellFormed makeAddress)
    (hrecords : ∀ record ∈ records, ∃ a, announced a ∧
      record ∈ (buildServiceRecords makeAddress rawServiceName a).records) (serviceName : Bytes) :
    (records.foldl (QueryContext.handleRecord ntop) { serviceName }).FromAnnounced announced rawServiceName := by
  apply foldl_invariant (QueryContext.handleRecord ntop) fun context => context.FromAnnounced announced rawServiceName
  · intro context hcontext record hrecord
    obtain ⟨a, ha, hmem⟩ := hrecords record hrecord
    obtain hkept | hnoted | ⟨told, htold⟩ | ⟨address, -, hnoted⟩ := handleRecord_of_mem (hwell a ha) hmem context
    · rw [hkept]
      exact hcontext
    · rw [hnoted]
      exact fromAnnounced_notePeer ha hcontext fun _ h => h
    · rw [htold]
      exact fromAnnounced_notePeer ha hcontext fun _ h => pendingFrom_told ha h told
    · rw [hnoted]
      unfold QueryContext.noteAddress
      split
      · exact hcontext
      · exact hcontext
  · intro name pending hpending
    cases hpending

end Arrivals

section Ingest

variable {isAddress : Bytes → Bool} {m : PeerManager} {peer : DiscoveredPeer} {found : List DiscoveredPeer} {t : UInt64}
  {siteId : UInt32} {endpoint : PeerEndpoint}

structure Wanted (isAddress : Bytes → Bool) (clusterName : Bytes) (peer : DiscoveredPeer) : Prop where
  cluster : peer.clusterName = clusterName
  site : peer.siteId ≠ 0
  endpoint : isValidHostPort isAddress peer.endpoint = true

structure SeenAt (clusterName : Bytes) (t : UInt64) (m : PeerManager) : Prop where
  cluster : m.clusterName = clusterName
  seen : ∀ siteId peer, m.discoveredPeers.find? siteId = some peer → peer.seenUnixMs = t

theorem seenAt_empty {clusterName : Bytes} : SeenAt clusterName t { clusterName } := by
  refine ⟨rfl, ?_⟩
  intro siteId peer hpeer
  cases hpeer

theorem ingest_wanted {clusterName : Bytes} (hm : SeenAt clusterName t m) (hseen : peer.seenUnixMs = t)
    (h : Wanted isAddress clusterName peer) :
    m.ingest isAddress peer =
      { m with discoveredPeers := m.discoveredPeers.insert peer.siteId ⟨peer.endpoint, t⟩ } := by
  have hnot : ¬ (peer.clusterName ≠ m.clusterName ∨ peer.siteId = 0 ∨
      isValidHostPort isAddress peer.endpoint = false) := by
    rintro (hne | hzero | hinvalid)
    · exact hne (h.cluster.trans hm.cluster.symm)
    · exact h.site hzero
    · exact absurd h.endpoint (by rw [hinvalid]; decide)
  have hnewest : ¬ ((m.discoveredPeers.find? peer.siteId).any fun old => peer.seenUnixMs < old.seenUnixMs) = true := by
    rw [Option.any_eq_true]
    rintro ⟨old, hold, hlt⟩
    have hlt' := of_decide_eq_true hlt
    rw [hm.seen _ old hold, hseen] at hlt'
    exact absurd hlt' (UInt64.lt_irrefl t)
  rw [PeerManager.ingest, if_neg hnot, if_neg hnewest, hseen]

theorem ingest_unwanted (h : ¬ Wanted isAddress m.clusterName peer) : m.ingest isAddress peer = m := by
  apply if_pos
  by_contra hall
  obtain ⟨hcluster, hsite, hvalid⟩ := by simpa only [not_or] using hall
  exact h ⟨of_not_not hcluster, hsite, eq_true_of_ne_false hvalid⟩

theorem find?_ingest (isAddress : Bytes → Bool) {clusterName : Bytes} (hm : SeenAt clusterName t m)
    (hseen : peer.seenUnixMs = t) (siteId : UInt32) :
    ((m.ingest isAddress peer).discoveredPeers.find? siteId = some ⟨peer.endpoint, t⟩ ∧
        Wanted isAddress clusterName peer ∧ peer.siteId = siteId) ∨
      ((m.ingest isAddress peer).discoveredPeers.find? siteId = m.discoveredPeers.find? siteId ∧
        ¬ (Wanted isAddress clusterName peer ∧ peer.siteId = siteId)) := by
  by_cases hwanted : Wanted isAddress clusterName peer
  · rw [ingest_wanted hm hseen hwanted, FlatMap.find?_insert]
    by_cases hsite : siteId = peer.siteId
    · exact .inl ⟨if_pos hsite, hwanted, hsite.symm⟩
    · exact .inr ⟨if_neg hsite, fun h => hsite h.2.symm⟩
  · rw [ingest_unwanted (hm.cluster.symm ▸ hwanted)]
    exact .inr ⟨rfl, fun h => hwanted h.1⟩

theorem seenAt_ingest {clusterName : Bytes} (hm : SeenAt clusterName t m) (hseen : peer.seenUnixMs = t) :
    SeenAt clusterName t (m.ingest isAddress peer) := by
  constructor
  · by_cases hwanted : Wanted isAddress clusterName peer
    · rw [ingest_wanted hm hseen hwanted]
      exact hm.cluster
    · rw [ingest_unwanted (hm.cluster.symm ▸ hwanted)]
      exact hm.cluster
  · intro siteId old hold
    obtain ⟨hnew, -⟩ | ⟨hsame, -⟩ := find?_ingest isAddress hm hseen siteId
    · rw [hnew] at hold
      obtain rfl := Option.some.inj hold
      rfl
    · rw [hsame] at hold
      exact hm.seen siteId old hold

theorem seenAt_refreshDiscovery {clusterName : Bytes} (hm : SeenAt clusterName t m)
    (hseen : ∀ peer ∈ found, peer.seenUnixMs = t) : SeenAt clusterName t (m.refreshDiscovery isAddress found) :=
  foldl_invariant (PeerManager.ingest isAddress) (SeenAt clusterName t)
    (fun _ hm peer hpeer => seenAt_ingest hm (hseen peer hpeer)) hm

theorem find?_refreshDiscovery {clusterName : Bytes} (hm : SeenAt clusterName t m)
    (hseen : ∀ peer ∈ found, peer.seenUnixMs = t)
    (hsome : ∃ peer ∈ found, Wanted isAddress clusterName peer ∧ peer.siteId = siteId)
    (hsame : ∀ peer ∈ found, Wanted isAddress clusterName peer → peer.siteId = siteId → peer.endpoint = endpoint) :
    (m.refreshDiscovery isAddress found).discoveredPeers.find? siteId = some ⟨endpoint, t⟩ := by
  apply foldl_settles (PeerManager.ingest isAddress) (fun m => m.discoveredPeers.find? siteId) (SeenAt clusterName t)
  · exact fun _ hm peer hpeer => seenAt_ingest hm (hseen peer hpeer)
  · intro m hm peer hpeer
    obtain ⟨hnew, hwanted, hsite⟩ | ⟨hkept, -⟩ := find?_ingest isAddress hm (hseen peer hpeer) siteId
    · rw [hsame peer hpeer hwanted hsite] at hnew
      exact .inl hnew
    · exact .inr hkept
  · obtain ⟨peer, hpeer, hwanted, hsite⟩ := hsome
    refine ⟨peer, hpeer, ?_⟩
    intro m hm
    obtain ⟨hnew, -⟩ | ⟨-, hnot⟩ := find?_ingest isAddress hm (hseen peer hpeer) siteId
    · rw [hsame peer hpeer hwanted hsite] at hnew
      exact hnew
    · exact absurd ⟨hwanted, hsite⟩ hnot
  · exact hm

theorem refreshDiscovery_origin {clusterName : Bytes} (hseen : ∀ peer ∈ found, peer.seenUnixMs = t) {seen : SeenPeer}
    (h : (PeerManager.refreshDiscovery isAddress { clusterName } found).discoveredPeers.find? siteId = some seen) :
    ∃ peer ∈ found, Wanted isAddress clusterName peer ∧ peer.siteId = siteId := by
  have hboth : ∀ m : PeerManager, (SeenAt clusterName t m ∧ ∀ seen, m.discoveredPeers.find? siteId = some seen →
      ∃ peer ∈ found, Wanted isAddress clusterName peer ∧ peer.siteId = siteId) → ∀ peer ∈ found,
      SeenAt clusterName t (m.ingest isAddress peer) ∧
        ∀ seen, (m.ingest isAddress peer).discoveredPeers.find? siteId = some seen →
          ∃ peer ∈ found, Wanted isAddress clusterName peer ∧ peer.siteId = siteId := by
    rintro m ⟨hm, horigin⟩ peer hpeer
    refine ⟨seenAt_ingest hm (hseen peer hpeer), ?_⟩
    intro seen hfind
    obtain ⟨-, hwanted, hsite⟩ | ⟨hkept, -⟩ := find?_ingest isAddress hm (hseen peer hpeer) siteId
    · exact ⟨peer, hpeer, hwanted, hsite⟩
    · rw [hkept] at hfind
      exact horigin seen hfind
  refine (foldl_invariant (PeerManager.ingest isAddress) _ hboth ⟨seenAt_empty, ?_⟩).2 seen h
  intro seen hfind
  cases hfind

end Ingest

section Network

variable {makeAddress : Bytes → Option IpAddress} {ntop : IpAddress → Bytes} {network : Network makeAddress}
  {rawServiceName clusterName : Bytes} {records : List MdnsRecord} {registered : List ServiceAnnouncement} {t : UInt64}

/-- What is announced for the cluster under a site id is announced under it for no other cluster, unless the browser's
own process announces it. -/
def SitesUnshared (network : Network makeAddress) (clusterName : Bytes) (registered : List ServiceAnnouncement) :
    Prop :=
  ∀ a ∈ network.announcements, a.clusterName = clusterName → a ∉ registered →
    ∀ b ∈ network.announcements, b.siteId = a.siteId → b.clusterName = clusterName

def discovered (makeAddress : Bytes → Option IpAddress) (ntop : IpAddress → Bytes) (clusterName rawServiceName : Bytes)
    (t : UInt64) (records : List MdnsRecord) (registered : List ServiceAnnouncement) : PeerManager :=
  PeerManager.discoverOnce ntop (fun text => (makeAddress text).isSome) { clusterName } rawServiceName t (some records)
    registered

def resolvedPeers (ntop : IpAddress → Bytes) (rawServiceName : Bytes) (t : UInt64) (records : List MdnsRecord) :
    List DiscoveredPeer :=
  let context := records.foldl (QueryContext.handleRecord ntop)
    { serviceName := toLowerAscii (canonicalMdnsServiceName rawServiceName) }
  context.peersByInstance.entries.filterMap fun peer => context.resolve t peer.2

theorem clusterName_refreshDiscovery {isAddress : Bytes → Bool} (m : PeerManager) (found : List DiscoveredPeer) :
    (m.refreshDiscovery isAddress found).clusterName = m.clusterName := by
  unfold PeerManager.refreshDiscovery
  induction found generalizing m with
  | nil => rfl
  | cons peer found ih =>
    have hstep : (m.ingest isAddress peer).clusterName = m.clusterName := by
      unfold PeerManager.ingest
      split_ifs <;> rfl
    exact (ih (m.ingest isAddress peer)).trans hstep

theorem discovered_eq : discovered makeAddress ntop clusterName rawServiceName t records registered =
    PeerManager.refreshDiscovery (fun text => (makeAddress text).isSome) { clusterName }
      (resolvedPeers ntop rawServiceName t records ++ registeredPeers t registered) := rfl

theorem clusterName_discovered :
    (discovered makeAddress ntop clusterName rawServiceName t records registered).clusterName = clusterName :=
  clusterName_refreshDiscovery _ _

theorem mem_registeredPeers {peer : DiscoveredPeer} : peer ∈ registeredPeers t registered ↔
    ∃ a ∈ registered, (⟨a.clusterName, a.siteId, a.endpoint, t⟩ : DiscoveredPeer) = peer := List.mem_map

theorem resolve_some {context : QueryContext} {pending : PendingPeer} {peer : DiscoveredPeer}
    (h : context.resolve t pending = some peer) :
    pending.siteId = some peer.siteId ∧ pending.clusterName ≠ [] ∧ pending.clusterName = peer.clusterName ∧
      peer.seenUnixMs = t := by
  obtain ⟨siteId, hsite, hpeer⟩ := Option.bind_eq_some_iff.mp h
  simp only at hpeer
  split_ifs at hpeer with hmissing
  obtain rfl := Option.some.inj hpeer
  exact ⟨hsite, fun hnil => hmissing (.inl hnil), rfl, rfl⟩

theorem resolvedPeers_origin (hrecords : ∀ record ∈ records, network.Sends rawServiceName record)
    {peer : DiscoveredPeer}
    (h : peer ∈ resolvedPeers ntop rawServiceName t records) :
    let context := records.foldl (QueryContext.handleRecord ntop)
      { serviceName := toLowerAscii (canonicalMdnsServiceName rawServiceName) }
    peer.seenUnixMs = t ∧ (∃ b ∈ network.announcements, b.siteId = peer.siteId ∧ b.clusterName = peer.clusterName) ∧
      context.resolve t (context.pending (instanceKey rawServiceName peer.siteId)) = some peer := by
  intro context
  have hfrom : context.FromAnnounced (· ∈ network.announcements) rawServiceName :=
    fromAnnounced_foldl network.wellFormed hrecords _
  obtain ⟨⟨name, pending⟩, hentry, hresolve⟩ := List.mem_filterMap.mp h
  have hfind := FlatMap.mem_entries.mp hentry
  obtain ⟨a, -, rfl, hpending⟩ := hfrom name pending hfind
  obtain ⟨hsite, hnamed, hcluster, hseen⟩ := resolve_some hresolve
  obtain ⟨b, hb, hbsite, hbcluster⟩ := hpending.cluster hnamed
  have hpeer := hpending.site peer.siteId hsite
  refine ⟨hseen, ⟨b, hb, hbsite.trans hpeer.symm, hbcluster.trans hcluster⟩, ?_⟩
  rw [hpeer, QueryContext.pending, hfind]
  exact hresolve

theorem wanted_registered (htexts : AddressTexts makeAddress ntop) {a : ServiceAnnouncement}
    (ha : a.WellFormed makeAddress) :
    Wanted (fun text => (makeAddress text).isSome) a.clusterName ⟨a.clusterName, a.siteId, a.endpoint, t⟩ := by
  refine ⟨rfl, ha.siteId, ?_⟩
  rw [isValidHostPort, if_neg, ha.literal]
  · rfl
  · rintro (hzero | hnil)
    · exact ha.port hzero
    · have hliteral := ha.literal
      rw [hnil, htexts.empty] at hliteral
      cases hliteral

theorem wanted_resolved (htexts : AddressTexts makeAddress ntop) {a : ServiceAnnouncement}
    (ha : a.WellFormed makeAddress) (address : IpAddress) :
    Wanted (fun text => (makeAddress text).isSome) a.clusterName
      ⟨a.clusterName, a.siteId, ⟨ntop (unscoped address), a.endpoint.port⟩, t⟩ := by
  refine ⟨rfl, ha.siteId, ?_⟩
  rw [isValidHostPort, if_neg, htexts.printed]
  · rfl
  · rintro (hzero | hnil)
    · exact ha.port hzero
    · exact htexts.ntop_ne_nil address hnil

theorem seenUnixMs_of_mem (ntop : IpAddress → Bytes) (t : UInt64) (registered : List ServiceAnnouncement)
    (hrecords : ∀ record ∈ records, network.Sends rawServiceName record) :
    ∀ peer ∈ resolvedPeers ntop rawServiceName t records ++ registeredPeers t registered, peer.seenUnixMs = t := by
  intro peer hpeer
  obtain hresolved | hregistered := List.mem_append.mp hpeer
  · exact (resolvedPeers_origin hrecords hresolved).1
  · obtain ⟨a, -, rfl⟩ := mem_registeredPeers.mp hregistered
    rfl

theorem unscoped_unscoped (address : IpAddress) : unscoped (unscoped address) = unscoped address := by
  cases address <;> rfl

theorem discovers_registered (htexts : AddressTexts makeAddress ntop)
    (hregistered : ∀ a ∈ registered, a ∈ network.announcements)
    (hrecords : ∀ record ∈ records, network.Sends rawServiceName record) {a : ServiceAnnouncement} (ha : a ∈ registered)
    (hcluster : a.clusterName = clusterName) :
    (discovered makeAddress ntop clusterName rawServiceName t records registered).discoveredPeers.find? a.siteId =
      some ⟨a.endpoint, t⟩ := by
  have hwell := network.wellFormed a (hregistered a ha)
  have hseen := seenUnixMs_of_mem ntop t registered hrecords
  rw [discovered_eq, PeerManager.refreshDiscovery, List.foldl_append]
  apply find?_refreshDiscovery
    (seenAt_refreshDiscovery seenAt_empty fun peer hpeer => hseen peer (List.mem_append_left _ hpeer))
  · exact fun peer hpeer => hseen peer (List.mem_append_right _ hpeer)
  · exact ⟨_, mem_registeredPeers.mpr ⟨a, ha, rfl⟩, hcluster ▸ wanted_registered htexts hwell, rfl⟩
  · intro peer hpeer hwanted hsite
    obtain ⟨b, hb, rfl⟩ := mem_registeredPeers.mp hpeer
    rw [network.distinct b (hregistered b hb) a (hregistered a ha) (hwanted.cluster.trans hcluster.symm) hsite]

theorem discovers_unregistered (htexts : AddressTexts makeAddress ntop)
    (hregistered : ∀ a ∈ registered, a ∈ network.announcements) (harrives : network.Arrives rawServiceName records)
    {a : ServiceAnnouncement} (ha : a ∈ network.announcements) (hcluster : a.clusterName = clusterName)
    (hnot : a ∉ registered)
    (hunshared : ∀ b ∈ network.announcements, b.siteId = a.siteId → b.clusterName = clusterName)
    {address : IpAddress} (haddress : makeAddress a.endpoint.host = some address) :
    (discovered makeAddress ntop clusterName rawServiceName t records registered).discoveredPeers.find? a.siteId =
      some ⟨⟨ntop (unscoped address), a.endpoint.port⟩, t⟩ := by
  have hwell := network.wellFormed a ha
  have hrecords : ∀ record ∈ records, network.Sends rawServiceName record := fun record => (harrives record).mp
  have honly : OnlyFrom makeAddress rawServiceName a records := by
    intro record hrecord
    obtain ⟨b, hb, hmem⟩ := hrecords record hrecord
    refine ⟨b, network.wellFormed b hb, hmem, ?_⟩
    intro hsite
    exact network.distinct b hb a ha ((hunshared b hb hsite).trans hcluster.symm) hsite
  have hall : (buildServiceRecords makeAddress rawServiceName a).records ⊆ records :=
    fun record hrecord => (harrives record).mpr ⟨a, ha, hrecord⟩
  have hresolve := resolve_settles htexts hwell haddress honly hall
    { serviceName := toLowerAscii (canonicalMdnsServiceName rawServiceName) } t
  rw [discovered_eq]
  apply find?_refreshDiscovery seenAt_empty (seenUnixMs_of_mem ntop t registered hrecords)
  · refine ⟨_, List.mem_append_left _ (List.mem_filterMap.mpr ⟨(instanceKey rawServiceName a.siteId, _), ?_, hresolve⟩),
      hcluster ▸ wanted_resolved htexts hwell address, rfl⟩
    exact FlatMap.mem_entries.mpr (find?_of_siteId (resolve_some hresolve).1)
  · intro peer hpeer hwanted hsite
    obtain hresolved | hown := List.mem_append.mp hpeer
    · obtain ⟨-, -, horigin⟩ := resolvedPeers_origin hrecords hresolved
      rw [hsite, hresolve] at horigin
      rw [← Option.some.inj horigin]
    · obtain ⟨b, hb, rfl⟩ := mem_registeredPeers.mp hown
      have hba := network.distinct b (hregistered b hb) a ha (hwanted.cluster.trans hcluster.symm) hsite
      exact absurd (hba ▸ hb) hnot

theorem discovers_of_unshared (htexts : AddressTexts makeAddress ntop)
    (hregistered : ∀ a ∈ registered, a ∈ network.announcements) (harrives : network.Arrives rawServiceName records)
    (hunshared : SitesUnshared network clusterName registered) :
    DiscoversExactly makeAddress (discovered makeAddress ntop clusterName rawServiceName t records registered)
      network.announcements := by
  have hrecords : ∀ record ∈ records, network.Sends rawServiceName record := fun record => (harrives record).mp
  have hcomplete : ∀ a ∈ network.announcements, a.clusterName = clusterName → ∃ peer,
      (discovered makeAddress ntop clusterName rawServiceName t records registered).discoveredPeers.find? a.siteId =
        some peer ∧ SameEndpoint makeAddress peer.endpoint a.endpoint := by
    intro a ha hcluster
    by_cases hown : a ∈ registered
    · exact ⟨_, discovers_registered htexts hregistered hrecords hown hcluster, rfl, rfl⟩
    · obtain ⟨address, haddress⟩ := Option.isSome_iff_exists.mp (network.wellFormed a ha).literal
      refine ⟨_, discovers_unregistered htexts hregistered harrives ha hcluster hown (hunshared a ha hcluster hown)
        haddress, ?_, rfl⟩
      rw [htexts.printed, haddress, Option.map_some, Option.map_some, unscoped_unscoped]
  refine ⟨clusterName_discovered.symm ▸ hcomplete, ?_⟩
  intro siteId seen hfind
  obtain ⟨peer, hpeer, hwanted, rfl⟩ := refreshDiscovery_origin (seenUnixMs_of_mem ntop t registered hrecords) hfind
  obtain ⟨b, hb, hbsite, hbcluster⟩ : ∃ b ∈ network.announcements, b.siteId = peer.siteId ∧
      b.clusterName = peer.clusterName := by
    obtain hresolved | hown := List.mem_append.mp hpeer
    · exact (resolvedPeers_origin hrecords hresolved).2.1
    · obtain ⟨b, hb, rfl⟩ := mem_registeredPeers.mp hown
      exact ⟨b, hregistered b hb, rfl, rfl⟩
  obtain ⟨seen', hfind', hendpoint⟩ := hcomplete b hb (hbcluster.trans hwanted.cluster)
  rw [hbsite] at hfind'
  obtain rfl := Option.some.inj (hfind'.symm.trans hfind)
  exact ⟨b, hb, (hbcluster.trans hwanted.cluster).trans clusterName_discovered.symm, hbsite, hendpoint⟩

theorem shared_site_is_lost (ntop : IpAddress → Bytes) (rawServiceName : Bytes) (t : UInt64)
    (hregistered : ∀ a ∈ registered, a ∈ network.announcements) {a b : ServiceAnnouncement}
    (ha : a ∈ network.announcements) (hb : b ∈ network.announcements) (hsite : b.siteId = a.siteId)
    (hcluster : a.clusterName = clusterName) (hnot : a ∉ registered) (hother : b.clusterName ≠ clusterName) :
    ∃ records, network.Arrives rawServiceName records ∧
      (discovered makeAddress ntop clusterName rawServiceName t records registered).discoveredPeers.find? a.siteId =
        none := by
  have harrives : network.Arrives rawServiceName
      (network.announcements.flatMap (fun a => (buildServiceRecords makeAddress rawServiceName a).records) ++
        (buildServiceRecords makeAddress rawServiceName b).records) := by
    intro record
    rw [List.mem_append, List.mem_flatMap]
    exact ⟨fun h => h.elim id fun hlast => ⟨b, hb, hlast⟩, .inl⟩
  refine ⟨_, harrives, ?_⟩
  have hrecords := fun record => (harrives record).mp
  by_contra hfound
  obtain ⟨seen, hfind⟩ := Option.ne_none_iff_exists'.mp hfound
  obtain ⟨peer, hpeer, hwanted, hpeersite⟩ :=
    refreshDiscovery_origin (seenUnixMs_of_mem ntop t registered hrecords) hfind
  obtain hresolved | hown := List.mem_append.mp hpeer
  · obtain ⟨-, -, horigin⟩ := resolvedPeers_origin hrecords hresolved
    obtain ⟨-, -, hnamed, -⟩ := resolve_some horigin
    have honly : OnlyFrom makeAddress rawServiceName b (buildServiceRecords makeAddress rawServiceName b).records :=
      fun record hrecord => ⟨b, network.wellFormed b hb, hrecord, fun _ => rfl⟩
    have hlast := pending_settles ntop (network.wellFormed b hb) (tells_cluster b) honly (List.Subset.refl _)
      ((network.announcements.flatMap fun a => (buildServiceRecords makeAddress rawServiceName a).records).foldl
        (QueryContext.handleRecord ntop) { serviceName := toLowerAscii (canonicalMdnsServiceName rawServiceName) })
    rw [← List.foldl_append, hsite, ← hpeersite, hnamed] at hlast
    exact hother (hlast.symm.trans hwanted.cluster)
  · obtain ⟨own, hmem, rfl⟩ := mem_registeredPeers.mp hown
    have heq := network.distinct own (hregistered own hmem) a ha (hwanted.cluster.trans hcluster.symm) hpeersite
    exact hnot (heq ▸ hmem)

/-- The instance and host names hold the site id and not the cluster. -/
theorem discovers_exactly_iff (htexts : AddressTexts makeAddress ntop) (network : Network makeAddress)
    (rawServiceName clusterName : Bytes) (t : UInt64) (hregistered : ∀ a ∈ registered, a ∈ network.announcements) :
    (∀ records, network.Arrives rawServiceName records →
        DiscoversExactly makeAddress (discovered makeAddress ntop clusterName rawServiceName t records registered)
          network.announcements) ↔
      SitesUnshared network clusterName registered := by
  constructor
  · intro h a ha hcluster hnot b hb hsite
    by_contra hother
    obtain ⟨records, harrives, hlost⟩ := shared_site_is_lost ntop rawServiceName t hregistered ha hb hsite hcluster hnot
      hother
    have hexact := h records harrives
    obtain ⟨peer, hfind, -⟩ := hexact.complete a ha (hcluster.trans clusterName_discovered.symm)
    rw [hlost] at hfind
    cases hfind
  · intro hunshared records harrives
    exact discovers_of_unshared htexts hregistered harrives hunshared

end Network

section Samples

def sampleNtop : IpAddress → Bytes
  | .v4 bits =>
    if bits = 0x0A000001 then ofString "10.0.0.1"
    else if bits = 0x0A000002 then ofString "10.0.0.2"
    else 4 :: decimal bits.toNat
  | .v6 bytes _ => 6 :: bytes.toList

def sampleMakeAddress (text : Bytes) : Option IpAddress :=
  if text = ofString "10.0.0.1" then some (.v4 0x0A000001)
  else if text = ofString "10.0.0.2" then some (.v4 0x0A000002)
  else match text with
  | 4 :: digits => some (.v4 (BitVec.ofNat 32 (digitsValue digits)))
  | 6 :: bytes => if h : bytes.toArray.size = 16 then some (.v6 ⟨bytes.toArray, h⟩ 0) else none
  | _ => none

theorem sampleTexts : AddressTexts sampleMakeAddress sampleNtop where
  empty := by decide
  printed := by
    rintro (bits | ⟨bytes, scopeId⟩)
    · simp only [unscoped, sampleNtop]
      split_ifs with hfirst hsecond
      · rw [hfirst]
        rfl
      · rw [hsecond]
        rfl
      · have hplain : ∀ text : Bytes, text.head? = some 49 → (4 :: decimal bits.toNat) ≠ text := by
          rintro text hhead rfl
          exact absurd hhead (by simp)
        rw [sampleMakeAddress, if_neg (hplain _ (by decide)), if_neg (hplain _ (by decide))]
        simp [digitsValue_decimal]
    · have hplain : ∀ text : Bytes, text.head? = some 49 → (6 :: bytes.toList) ≠ text := by
        rintro text hhead rfl
        exact absurd hhead (by simp)
      rw [unscoped, sampleNtop, sampleMakeAddress, if_neg (hplain _ (by decide)), if_neg (hplain _ (by decide))]
      have hbytes : bytes.toList.toArray = bytes.toArray := Array.toArray_toList
      simp [hbytes]

def announcedAt (clusterName : String) (siteId : UInt32) (host : String) : ServiceAnnouncement :=
  ⟨ofString clusterName, siteId, ⟨ofString host, 9000⟩⟩

def quietNetwork : Network sampleMakeAddress where
  announcements := [announcedAt "a" 1 "10.0.0.1", announcedAt "b" 2 "10.0.0.2"]
  wellFormed := by
    intro a ha
    obtain rfl | rfl := by simpa using ha
    · exact ⟨by decide, by decide, by decide, by decide⟩
    · exact ⟨by decide, by decide, by decide, by decide⟩
  distinct := by decide

def sharedNetwork : Network sampleMakeAddress where
  announcements := [announcedAt "a" 1 "10.0.0.1", announcedAt "b" 1 "10.0.0.2"]
  wellFormed := by
    intro a ha
    obtain rfl | rfl := by simpa using ha
    · exact ⟨by decide, by decide, by decide, by decide⟩
    · exact ⟨by decide, by decide, by decide, by decide⟩
  distinct := by decide

def quietRecords : List MdnsRecord :=
  (quietNetwork.announcements.reverse ++ quietNetwork.announcements).flatMap
    fun a => (buildServiceRecords sampleMakeAddress [] a).records

theorem quiet_network_is_discovered : DiscoversExactly sampleMakeAddress
    (discovered sampleMakeAddress sampleNtop (ofString "a") [] 1 quietRecords []) quietNetwork.announcements := by
  have harrives : quietNetwork.Arrives [] quietRecords := by
    intro record
    simp [quietRecords, Network.Sends, List.mem_flatMap]
  have hunshared : SitesUnshared quietNetwork (ofString "a") [] := by
    unfold SitesUnshared
    decide
  have hnone : ∀ a ∈ ([] : List ServiceAnnouncement), a ∈ quietNetwork.announcements := nofun
  exact (discovers_exactly_iff sampleTexts quietNetwork [] (ofString "a") 1 hnone).mpr hunshared _ harrives

theorem second_cluster_hides_the_peer : ¬ ∀ records, sharedNetwork.Arrives [] records →
    DiscoversExactly sampleMakeAddress (discovered sampleMakeAddress sampleNtop (ofString "a") [] 1 records [])
      sharedNetwork.announcements := by
  intro h
  have ha : announcedAt "a" 1 "10.0.0.1" ∈ sharedNetwork.announcements := by decide
  have hb : announcedAt "b" 1 "10.0.0.2" ∈ sharedNetwork.announcements := by decide
  have hnone : ∀ a ∈ ([] : List ServiceAnnouncement), a ∈ sharedNetwork.announcements := nofun
  have hother : (announcedAt "b" 1 "10.0.0.2").clusterName ≠ ofString "a" := by decide
  have hcluster : (announcedAt "a" 1 "10.0.0.1").clusterName = ofString "a" := rfl
  obtain ⟨records, harrives, hlost⟩ := shared_site_is_lost sampleNtop [] 1 hnone ha hb rfl hcluster nofun hother
  obtain ⟨peer, hfind, -⟩ := (h records harrives).complete _ ha clusterName_discovered.symm
  rw [hlost] at hfind
  cases hfind

end Samples

end Tightrope.Sync.Discovery
