import Tightrope.Core.HostPort
import Tightrope.P2p.Dht.NodeId

namespace Tightrope.P2p.Dht

open Bytes BigEndian Tightrope.Core
open WireCodec hiding readU32 readU64 writeU32 writeU64

inductive RpcType where
  | pingRequest
  | pingResponse
  | findNodeRequest
  | findNodeResponse
  | announcePeerRequest
  | announcePeerResponse
  | findValueRequest
  | findValueResponse
  | error
  deriving DecidableEq

namespace RpcType

def code : RpcType → UInt8
  | pingRequest => 1
  | pingResponse => 2
  | findNodeRequest => 3
  | findNodeResponse => 4
  | announcePeerRequest => 5
  | announcePeerResponse => 6
  | findValueRequest => 7
  | findValueResponse => 8
  | error => 255

def ofCode (raw : UInt8) : Option RpcType :=
  [pingRequest, pingResponse, findNodeRequest, findNodeResponse, announcePeerRequest, announcePeerResponse,
    findValueRequest, findValueResponse, error].find? fun type => type.code = raw

theorem ofCode_code (type : RpcType) : ofCode type.code = some type := by cases type <;> rfl

theorem code_of_ofCode {raw : UInt8} {type : RpcType} (h : ofCode raw = some type) : type.code = raw := by
  simpa using List.find?_some h

end RpcType

structure NodeWireContact where
  id : NodeId
  endpoint : HostPortEndpoint
  lastSeenUnixMs : UInt64 := 0
  deriving DecidableEq

structure ValueRecord where
  value : Bytes
  expiresUnixMs : UInt64 := 0
  deriving DecidableEq

structure RpcMessage where
  type : RpcType := .error
  txId : UInt32 := 0
  sourcePort : UInt16 := 0
  senderId : NodeId := .zero
  targetId : NodeId := .zero
  maxResults : UInt16 := 0
  pingUnixMs : UInt64 := 0
  nodes : List NodeWireContact := []
  key : Bytes := []
  value : Bytes := []
  ttlSeconds : UInt32 := 0
  values : List ValueRecord := []
  accepted : Bool := false
  errorCode : UInt16 := 0
  errorMessage : Bytes := []
  deriving DecidableEq

def kMagic : Bytes := ofString "TDHT"

def kVersion : UInt8 := 1

def kMaxPacketBytes : ℕ := 4096

def kMaxNodesPerMessage : ℕ := 32

def kMaxValuesPerMessage : ℕ := 32

def kMaxHostBytes : ℕ := 255

def kMaxKeyBytes : ℕ := 256

def kMaxValueBytes : ℕ := 1024

def kMaxErrorBytes : ℕ := 512

def putU8 (v : UInt8) : Option Bytes := some (writeU8 v)

def putU16 (v : UInt16) : Option Bytes := some (writeU16 v)

def putU32 (v : UInt32) : Option Bytes := some (writeU32 v)

def putU64 (v : UInt64) : Option Bytes := some (writeU64 v)

def putNodeId (id : NodeId) : Option Bytes := some id.bytes

section Header

def putType (type : RpcType) : Option Bytes := some (writeU8 type.code)

def readType : Reader RpcType := fun bs => (readU8 bs).bind fun r => (RpcType.ofCode r.1).map fun type => (type, r.2)

theorem exact_type : Exact putType readType where
  reads := fun {type w} h rest => by
    obtain rfl := Option.some.inj h
    rw [readType, reads_u8, Option.bind_some, RpcType.ofCode_code, Option.map_some]
  canonical := fun {bytes type rest} h => by
    obtain ⟨⟨raw, mid⟩, hraw, htype⟩ := Option.bind_eq_some_iff.mp h
    obtain ⟨t, ht, hpair⟩ := Option.map_eq_some_iff.mp htype
    obtain ⟨rfl, rfl⟩ := Prod.mk.inj hpair
    obtain ⟨w, hw, rfl⟩ := exact_u8.canonical hraw
    obtain rfl := Option.some.inj hw
    exact ⟨writeU8 raw, by rw [putType, RpcType.code_of_ofCode ht], rfl⟩

abbrev HeaderFields := Unit × Unit × RpcType × UInt32 × UInt16 × NodeId

def RpcMessage.headerFields (m : RpcMessage) : HeaderFields := ((), (), m.type, m.txId, m.sourcePort, m.senderId)

def ofHeaderFields (fields : HeaderFields) : RpcMessage :=
  { type := fields.2.2.1, txId := fields.2.2.2.1, sourcePort := fields.2.2.2.2.1, senderId := fields.2.2.2.2.2 }

def writeHeaderFields : HeaderFields → Option Bytes :=
  writePair (fun _ => some kMagic) (writePair (fun _ => some [kVersion])
    (writePair putType (writePair putU32 (writePair putU16 putNodeId))))

def readHeaderFields : Reader HeaderFields :=
  readPair (readConstant kMagic) (readPair (readConstant [kVersion])
    (readPair readType (readPair readU32 (readPair readU16 NodeId.read))))

def writeHeader (m : RpcMessage) : Option Bytes := writeHeaderFields m.headerFields

def readHeader : Reader RpcMessage := readHeaderFields.map ofHeaderFields

theorem exact_headerFields : Exact writeHeaderFields readHeaderFields :=
  (exact_constant kMagic).pair ((exact_constant [kVersion]).pair
    (exact_type.pair (exact_u32.pair (exact_u16.pair NodeId.exact))))

end Header

section Lists

variable (isAddress : Bytes → Bool)

def contactFields (c : NodeWireContact) : NodeId × Bytes × UInt16 × UInt64 :=
  (c.id, c.endpoint.host, c.endpoint.port, c.lastSeenUnixMs)

def writeContactFields (c : NodeWireContact) : Option Bytes :=
  writePair putNodeId (writePair stringU8 (writePair putU16 putU64)) (contactFields c)

def readContactFields : Reader NodeWireContact :=
  (readPair NodeId.read (readPair readStringU8 (readPair readU16 readU64))).map fun fields =>
    ⟨fields.1, ⟨fields.2.1, fields.2.2.1⟩, fields.2.2.2⟩

def writeNodeContact (c : NodeWireContact) : Option Bytes :=
  if c.endpoint.host = [] ∨ c.endpoint.host.length > kMaxHostBytes ∨ ¬ isValidHostPort isAddress c.endpoint then none
  else writeContactFields c

def readNodeContact : Reader NodeWireContact :=
  Reader.guard (fun c => isValidHostPort isAddress c.endpoint) readContactFields

def writeValueRecord (entry : ValueRecord) : Option Bytes :=
  if entry.value.length > kMaxValueBytes then none
  else writePair stringU16 putU64 (entry.value, entry.expiresUnixMs)

def readValueRecord : Reader ValueRecord :=
  Reader.guard (fun entry => entry.value.length ≤ kMaxValueBytes)
    ((readPair readStringU16 readU64).map fun fields => ⟨fields.1, fields.2⟩)

def writeNodes : List NodeWireContact → Option Bytes := writeCounted kMaxNodesPerMessage (writeNodeContact isAddress)

def readNodes : Reader (List NodeWireContact) := readCounted kMaxNodesPerMessage (readNodeContact isAddress)

def writeValues : List ValueRecord → Option Bytes := writeCounted kMaxValuesPerMessage writeValueRecord

def readValues : Reader (List ValueRecord) := readCounted kMaxValuesPerMessage readValueRecord

end Lists

section Body

variable (isAddress : Bytes → Bool)

def announceFits (fields : Bytes × Bytes × UInt32) : Bool :=
  fields.1 ≠ [] && fields.1.length ≤ kMaxKeyBytes && fields.2.1.length ≤ kMaxValueBytes

def keyFits (fields : Bytes × UInt16) : Bool := fields.1 ≠ [] && fields.1.length ≤ kMaxKeyBytes

def errorFits (fields : UInt16 × Bytes) : Bool := fields.2.length ≤ kMaxErrorBytes

theorem announceFits_iff {fields : Bytes × Bytes × UInt32} : announceFits fields = true ↔
    fields.1 ≠ [] ∧ fields.1.length ≤ kMaxKeyBytes ∧ fields.2.1.length ≤ kMaxValueBytes := by
  simp [announceFits, and_assoc]

theorem keyFits_iff {fields : Bytes × UInt16} :
    keyFits fields = true ↔ fields.1 ≠ [] ∧ fields.1.length ≤ kMaxKeyBytes := by
  simp [keyFits]

theorem errorFits_iff {fields : UInt16 × Bytes} : errorFits fields = true ↔ fields.2.length ≤ kMaxErrorBytes := by
  simp [errorFits]

def writeBody (m : RpcMessage) : Option Bytes :=
  match m.type with
  | .pingRequest => some []
  | .pingResponse => putU64 m.pingUnixMs
  | .findNodeRequest => writePair putNodeId putU16 (m.targetId, m.maxResults)
  | .findNodeResponse => writeNodes isAddress m.nodes
  | .announcePeerRequest =>
    writeIf announceFits (writePair stringU16 (writePair stringU16 putU32)) (m.key, m.value, m.ttlSeconds)
  | .announcePeerResponse => putU8 (if m.accepted then 1 else 0)
  | .findValueRequest => writeIf keyFits (writePair stringU16 putU16) (m.key, m.maxResults)
  | .findValueResponse => writePair writeValues (writeNodes isAddress) (m.values, m.nodes)
  | .error => writeIf errorFits (writePair putU16 stringU16) (m.errorCode, m.errorMessage)

def readBody (m : RpcMessage) : Reader RpcMessage :=
  match m.type with
  | .pingRequest => fun bs => some (m, bs)
  | .pingResponse => readU64.map fun ping => { m with pingUnixMs := ping }
  | .findNodeRequest => (readPair NodeId.read readU16).map fun f => { m with targetId := f.1, maxResults := f.2 }
  | .findNodeResponse => (readNodes isAddress).map fun nodes => { m with nodes := nodes }
  | .announcePeerRequest =>
    (Reader.guard announceFits (readPair readStringU16 (readPair readStringU16 readU32))).map fun f =>
      { m with key := f.1, value := f.2.1, ttlSeconds := f.2.2 }
  | .announcePeerResponse => readU8.map fun (flag : UInt8) => { m with accepted := flag ≠ 0 }
  | .findValueRequest =>
    (Reader.guard keyFits (readPair readStringU16 readU16)).map fun f => { m with key := f.1, maxResults := f.2 }
  | .findValueResponse =>
    (readPair readValues (readNodes isAddress)).map fun f => { m with values := f.1, nodes := f.2 }
  | .error =>
    (Reader.guard errorFits (readPair readU16 readStringU16)).map fun f =>
      { m with errorCode := f.1, errorMessage := f.2 }

def encodeMessage (m : RpcMessage) : Option Bytes :=
  (writePair writeHeader (writeBody isAddress) (m, m)).bind fun packet =>
    if packet = [] ∨ packet.length > kMaxPacketBytes then none else some packet

def decodeMessage (payload : Bytes) : Option RpcMessage :=
  if payload = [] ∨ payload.length > kMaxPacketBytes then none
  else (readHeader.andThen (readBody isAddress) payload).bind fun r => if r.2 ≠ [] then none else some r.1

end Body

section Exactness

variable (isAddress : Bytes → Bool)

theorem exact_contactFields : Exact writeContactFields readContactFields :=
  (NodeId.exact.pair (exact_stringU8.pair (exact_u16.pair exact_u64))).map (g := contactFields)
    (fun _ => rfl) fun _ => rfl

theorem writeNodeContact_eq :
    writeNodeContact isAddress = writeIf (fun c => isValidHostPort isAddress c.endpoint) writeContactFields := by
  funext c
  rw [writeNodeContact, writeIf]
  by_cases hvalid : isValidHostPort isAddress c.endpoint = true
  · have hhost := host_ne_nil_of_valid hvalid
    by_cases hlong : c.endpoint.host.length > kMaxHostBytes
    · -- A longer host does not fit its length byte.
      have hnone : stringU8 c.endpoint.host = none := if_pos hlong
      simp [hhost, hlong, hvalid, writeContactFields, writePair, contactFields, hnone]
    · simp [hhost, hlong, hvalid]
  · simp [hvalid]

theorem exact_nodeContact : Exact (writeNodeContact isAddress) (readNodeContact isAddress) := by
  rw [writeNodeContact_eq]
  exact exact_contactFields.guard _

theorem exact_valueRecord : Exact writeValueRecord readValueRecord := by
  have hfields : Exact (fun entry : ValueRecord => writePair stringU16 putU64 (entry.value, entry.expiresUnixMs))
      ((readPair readStringU16 readU64).map fun fields => (⟨fields.1, fields.2⟩ : ValueRecord)) :=
    (exact_stringU16.pair exact_u64).map (g := fun entry : ValueRecord => (entry.value, entry.expiresUnixMs))
      (fun _ => rfl) fun _ => rfl
  have hwrite : writeValueRecord = writeIf (fun entry => entry.value.length ≤ kMaxValueBytes)
      (fun entry : ValueRecord => writePair stringU16 putU64 (entry.value, entry.expiresUnixMs)) := by
    funext entry
    rw [writeValueRecord, writeIf]
    by_cases h : entry.value.length > kMaxValueBytes
    · simp [h]
    · simp [not_lt.mp h]
  rw [hwrite]
  exact hfields.guard _

theorem exact_nodes : Exact (writeNodes isAddress) (readNodes isAddress) :=
  exact_counted (by decide) (exact_nodeContact isAddress)

theorem exact_values : Exact writeValues readValues := exact_counted (by decide) exact_valueRecord

/-- The message with only the fields its kind sends. -/
def RpcMessage.carried (m : RpcMessage) : RpcMessage :=
  let header := ofHeaderFields m.headerFields
  match m.type with
  | .pingRequest => header
  | .pingResponse => { header with pingUnixMs := m.pingUnixMs }
  | .findNodeRequest => { header with targetId := m.targetId, maxResults := m.maxResults }
  | .findNodeResponse => { header with nodes := m.nodes }
  | .announcePeerRequest => { header with key := m.key, value := m.value, ttlSeconds := m.ttlSeconds }
  | .announcePeerResponse => { header with accepted := m.accepted }
  | .findValueRequest => { header with key := m.key, maxResults := m.maxResults }
  | .findValueResponse => { header with values := m.values, nodes := m.nodes }
  | .error => { header with errorCode := m.errorCode, errorMessage := m.errorMessage }

variable {isAddress}

theorem reads_body {m : RpcMessage} {w : Bytes} (h : writeBody isAddress m = some w) :
    Reads (readBody isAddress (ofHeaderFields m.headerFields)) w m.carried := by
  obtain ⟨type, tx, port, sender, target, max, ping, nodes, key, value, ttl, values, accepted, code, message⟩ := m
  intro rest
  cases type with
  | pingRequest =>
    obtain rfl := Option.some.inj h
    rfl
  | pingResponse => exact congrArg (Option.map _) (exact_u64.reads h rest)
  | findNodeRequest => exact congrArg (Option.map _) ((NodeId.exact.pair exact_u16).reads h rest)
  | findNodeResponse => exact congrArg (Option.map _) ((exact_nodes isAddress).reads h rest)
  | announcePeerRequest =>
    exact congrArg (Option.map _)
      (((exact_stringU16.pair (exact_stringU16.pair exact_u32)).guard announceFits).reads h rest)
  | announcePeerResponse =>
    obtain rfl := Option.some.inj h
    cases accepted <;> rfl
  | findValueRequest =>
    exact congrArg (Option.map _) (((exact_stringU16.pair exact_u16).guard keyFits).reads h rest)
  | findValueResponse => exact congrArg (Option.map _) ((exact_values.pair (exact_nodes isAddress)).reads h rest)
  | error => exact congrArg (Option.map _) (((exact_u16.pair exact_stringU16).guard errorFits).reads h rest)

theorem canonical_map {α : Type} {write : α → Option Bytes} {read : Reader α} (h : Exact write read)
    {put : α × Bytes → RpcMessage × Bytes} {bytes rest : Bytes} {m : RpcMessage}
    (hread : Option.map put (read bytes) = some (m, rest)) (hrest : ∀ r, (put r).2 = r.2) :
    ∃ a w, m = (put (a, rest)).1 ∧ write a = some w ∧ bytes = w ++ rest := by
  obtain ⟨⟨a, mid⟩, ha, hput⟩ := Option.map_eq_some_iff.mp hread
  obtain rfl : mid = rest := (hrest (a, mid)).symm.trans (congrArg Prod.snd hput)
  obtain ⟨w, hw, hbytes⟩ := h.canonical ha
  exact ⟨a, w, (congrArg Prod.fst hput).symm, hw, hbytes⟩

theorem canonical_body (fields : HeaderFields) {bytes rest : Bytes} {m : RpcMessage}
    (h : readBody isAddress (ofHeaderFields fields) bytes = some (m, rest)) :
    m.headerFields = fields ∧ m.carried = m ∧
      ((∃ w, writeBody isAddress m = some w ∧ bytes = w ++ rest) ∨
        m.type = .announcePeerResponse ∧ m.accepted = true ∧ ∃ flag : UInt8, 2 ≤ flag ∧ bytes = flag :: rest) := by
  obtain ⟨⟨⟩, ⟨⟩, type, tx, port, sender⟩ := fields
  cases type with
  | pingRequest =>
    obtain ⟨rfl, rfl⟩ := Prod.mk.inj (Option.some.inj h)
    exact ⟨rfl, rfl, .inl ⟨[], rfl, rfl⟩⟩
  | pingResponse =>
    obtain ⟨ping, w, rfl, hw, hbytes⟩ := canonical_map exact_u64 h fun _ => rfl
    exact ⟨rfl, rfl, .inl ⟨w, hw, hbytes⟩⟩
  | findNodeRequest =>
    obtain ⟨f, w, rfl, hw, hbytes⟩ := canonical_map (NodeId.exact.pair exact_u16) h fun _ => rfl
    exact ⟨rfl, rfl, .inl ⟨w, hw, hbytes⟩⟩
  | findNodeResponse =>
    obtain ⟨nodes, w, rfl, hw, hbytes⟩ := canonical_map (exact_nodes isAddress) h fun _ => rfl
    exact ⟨rfl, rfl, .inl ⟨w, hw, hbytes⟩⟩
  | announcePeerRequest =>
    obtain ⟨f, w, rfl, hw, hbytes⟩ :=
      canonical_map ((exact_stringU16.pair (exact_stringU16.pair exact_u32)).guard announceFits) h fun _ => rfl
    exact ⟨rfl, rfl, .inl ⟨w, hw, hbytes⟩⟩
  | announcePeerResponse =>
    obtain ⟨flag, w, rfl, hw, hbytes⟩ := canonical_map exact_u8 h fun _ => rfl
    obtain rfl := Option.some.inj hw
    refine ⟨rfl, rfl, ?_⟩
    by_cases hlarge : 2 ≤ flag
    · refine .inr ⟨rfl, ?_, flag, hlarge, hbytes⟩
      have hne : flag ≠ 0 := fun hzero => absurd (hzero ▸ hlarge) (by decide)
      simp [hne]
    · refine .inl ⟨writeU8 flag, ?_, hbytes⟩
      have hsmall : flag = 0 ∨ flag = 1 := by
        rw [UInt8.le_iff_toNat_le] at hlarge
        have htwo : (2 : UInt8).toNat = 2 := rfl
        obtain hzero | hone : flag.toNat = 0 ∨ flag.toNat = 1 := by omega
        · exact .inl (UInt8.toNat_inj.mp hzero)
        · exact .inr (UInt8.toNat_inj.mp hone)
      obtain rfl | rfl := hsmall <;> rfl
  | findValueRequest =>
    obtain ⟨f, w, rfl, hw, hbytes⟩ := canonical_map ((exact_stringU16.pair exact_u16).guard keyFits) h fun _ => rfl
    exact ⟨rfl, rfl, .inl ⟨w, hw, hbytes⟩⟩
  | findValueResponse =>
    obtain ⟨f, w, rfl, hw, hbytes⟩ := canonical_map (exact_values.pair (exact_nodes isAddress)) h fun _ => rfl
    exact ⟨rfl, rfl, .inl ⟨w, hw, hbytes⟩⟩
  | error =>
    obtain ⟨f, w, rfl, hw, hbytes⟩ := canonical_map ((exact_u16.pair exact_stringU16).guard errorFits) h fun _ => rfl
    exact ⟨rfl, rfl, .inl ⟨w, hw, hbytes⟩⟩

theorem encodeMessage_eq_some {m : RpcMessage} {packet : Bytes} :
    encodeMessage isAddress m = some packet ↔
      ∃ header body, writeHeader m = some header ∧ writeBody isAddress m = some body ∧ packet = header ++ body ∧
        packet ≠ [] ∧ packet.length ≤ kMaxPacketBytes := by
  rw [encodeMessage, Option.bind_eq_some_iff]
  constructor
  · rintro ⟨w, hw, hsize⟩
    obtain ⟨header, body, hheader, hbody, rfl⟩ := writePair_eq_some.mp hw
    split_ifs at hsize with hlimit
    obtain rfl := Option.some.inj hsize
    rw [not_or, not_lt] at hlimit
    exact ⟨header, body, hheader, hbody, rfl, hlimit.1, hlimit.2⟩
  · rintro ⟨header, body, hheader, hbody, rfl, hne, hle⟩
    refine ⟨header ++ body, writePair_eq_some.mpr ⟨header, body, hheader, hbody, rfl⟩, ?_⟩
    rw [if_neg (not_or.mpr ⟨hne, not_lt.mpr hle⟩)]

theorem decodeMessage_eq_some {payload : Bytes} {m : RpcMessage} :
    decodeMessage isAddress payload = some m ↔
      payload ≠ [] ∧ payload.length ≤ kMaxPacketBytes ∧
        readHeader.andThen (readBody isAddress) payload = some (m, []) := by
  rw [decodeMessage]
  split_ifs with hlimit
  · simp only [false_iff]
    rintro ⟨hne, hle, -⟩
    exact hlimit.elim hne (not_lt.mpr hle)
  · rw [not_or, not_lt] at hlimit
    rw [Option.bind_eq_some_iff]
    constructor
    · rintro ⟨⟨m', rest⟩, hread, hrest⟩
      split_ifs at hrest with hnil
      obtain rfl := Option.some.inj hrest
      obtain rfl := not_not.mp hnil
      exact ⟨hlimit.1, hlimit.2, hread⟩
    · rintro ⟨-, -, hread⟩
      exact ⟨(m, []), hread, by simp⟩

theorem decodeMessage_encodeMessage {m : RpcMessage} {packet : Bytes} (h : encodeMessage isAddress m = some packet) :
    decodeMessage isAddress packet = some m.carried := by
  obtain ⟨header, body, hheader, hbody, rfl, hne, hle⟩ := encodeMessage_eq_some.mp h
  refine decodeMessage_eq_some.mpr ⟨hne, hle, ?_⟩
  have hread := ((exact_headerFields.reads hheader).map ofHeaderFields).andThen (reads_body hbody) []
  rwa [List.append_nil] at hread

theorem encodeMessage_of_decodeMessage {payload : Bytes} {m : RpcMessage}
    (h : decodeMessage isAddress payload = some m) :
    m.carried = m ∧ (encodeMessage isAddress m = some payload ∨
      m.type = .announcePeerResponse ∧ m.accepted = true ∧
        ∃ front, ∃ flag : UInt8, 2 ≤ flag ∧ payload = front ++ [flag] ∧
          encodeMessage isAddress m = some (front ++ [1])) := by
  obtain ⟨hne, hle, hread⟩ := decodeMessage_eq_some.mp h
  obtain ⟨header, mid, hheader, hbody⟩ := Reader.andThen_eq_some.mp hread
  obtain ⟨fields, hfields, rfl⟩ := Reader.map_eq_some.mp hheader
  obtain ⟨w, hw, rfl⟩ := exact_headerFields.canonical hfields
  obtain ⟨hfields, hcarried, ⟨body, hbody, hmid⟩ | ⟨htype, haccepted, flag, hflag, hmid⟩⟩ := canonical_body fields hbody
  · rw [← hfields] at hw
    rw [hmid, List.append_nil] at hne hle ⊢
    exact ⟨hcarried, .inl (encodeMessage_eq_some.mpr ⟨w, body, hw, hbody, rfl, hne, hle⟩)⟩
  · rw [← hfields] at hw
    refine ⟨hcarried, .inr ⟨htype, haccepted, w, flag, hflag, by rw [hmid], encodeMessage_eq_some.mpr ?_⟩⟩
    refine ⟨w, [1], hw, ?_, rfl, by simp, ?_⟩
    · simp only [writeBody, htype, haccepted, ↓reduceIte]
      rfl
    · rw [hmid] at hle
      simpa using hle

end Exactness

section Acceptance

variable (isAddress : Bytes → Bool)

def NodesFit (nodes : List NodeWireContact) : Prop :=
  nodes.length ≤ kMaxNodesPerMessage ∧
    ∀ c ∈ nodes, isValidHostPort isAddress c.endpoint = true ∧ c.endpoint.host.length ≤ kMaxHostBytes

def ValuesFit (values : List ValueRecord) : Prop :=
  values.length ≤ kMaxValuesPerMessage ∧ ∀ entry ∈ values, entry.value.length ≤ kMaxValueBytes

def contactBytes (c : NodeWireContact) : ℕ := 32 + (1 + c.endpoint.host.length + (2 + 8))

def recordBytes (entry : ValueRecord) : ℕ := 2 + entry.value.length + 8

def RpcMessage.Fits (m : RpcMessage) : Prop :=
  match m.type with
  | .pingRequest | .pingResponse | .findNodeRequest | .announcePeerResponse => True
  | .findNodeResponse => NodesFit isAddress m.nodes
  | .announcePeerRequest => announceFits (m.key, m.value, m.ttlSeconds)
  | .findValueRequest => keyFits (m.key, m.maxResults)
  | .findValueResponse => ValuesFit m.values ∧ NodesFit isAddress m.nodes
  | .error => errorFits (m.errorCode, m.errorMessage)

def RpcMessage.bodyBytes (m : RpcMessage) : ℕ :=
  match m.type with
  | .pingRequest => 0
  | .pingResponse => 8
  | .findNodeRequest => 32 + 2
  | .findNodeResponse => 2 + (m.nodes.map contactBytes).sum
  | .announcePeerRequest => 2 + m.key.length + (2 + m.value.length + 4)
  | .announcePeerResponse => 1
  | .findValueRequest => 2 + m.key.length + 2
  | .findValueResponse => 2 + (m.values.map recordBytes).sum + (2 + (m.nodes.map contactBytes).sum)
  | .error => 2 + (2 + m.errorMessage.length)

def RpcMessage.packetBytes (m : RpcMessage) : ℕ := 44 + m.bodyBytes

variable {isAddress}

theorem writes_u16 (v : UInt16) : Writes putU16 v 2 := ⟨_, rfl, length_be 2 _⟩

theorem writes_u32 (v : UInt32) : Writes putU32 v 4 := ⟨_, rfl, length_be 4 _⟩

theorem writes_u64 (v : UInt64) : Writes putU64 v 8 := ⟨_, rfl, length_be 8 _⟩

theorem writes_nodeId (id : NodeId) : Writes putNodeId id 32 := ⟨_, rfl, id.length_bytes⟩

theorem writes_nodes {nodes : List NodeWireContact} (h : NodesFit isAddress nodes) :
    Writes (writeNodes isAddress) nodes (2 + (nodes.map contactBytes).sum) := by
  apply writes_counted h.1
  intro c hc
  obtain ⟨hvalid, hhost⟩ := h.2 c hc
  rw [writeNodeContact_eq]
  have hfields : Writes writeContactFields c (contactBytes c) :=
    (writes_nodeId c.id).pair ((writes_stringU8 hhost).pair ((writes_u16 c.endpoint.port).pair (writes_u64 _)))
  exact hfields.guard hvalid

theorem writes_values {values : List ValueRecord} (h : ValuesFit values) :
    Writes writeValues values (2 + (values.map recordBytes).sum) := by
  apply writes_counted h.1
  intro entry hentry
  have hlength := h.2 entry hentry
  obtain ⟨w, hw, hsize⟩ :=
    (writes_stringU16 (hlength.trans (by decide))).pair (writes_u64 entry.expiresUnixMs)
  exact ⟨w, by rw [writeValueRecord, if_neg (not_lt.mpr hlength), hw], hsize⟩

theorem writes_body {m : RpcMessage} (h : m.Fits isAddress) : Writes (writeBody isAddress) m m.bodyBytes := by
  obtain ⟨type, tx, port, sender, target, max, ping, nodes, key, value, ttl, values, accepted, code, message⟩ := m
  cases type with
  | pingRequest => exact ⟨[], rfl, rfl⟩
  | pingResponse => exact writes_u64 ping
  | findNodeRequest => exact (writes_nodeId target).pair (writes_u16 max)
  | findNodeResponse => exact writes_nodes h
  | announcePeerRequest =>
    obtain ⟨-, hkey, hvalue⟩ := announceFits_iff.mp h
    have hfields := (writes_stringU16 (hkey.trans (by decide))).pair
      ((writes_stringU16 (hvalue.trans (by decide))).pair (writes_u32 ttl))
    exact hfields.guard h
  | announcePeerResponse => exact ⟨_, rfl, rfl⟩
  | findValueRequest =>
    obtain ⟨-, hkey⟩ := keyFits_iff.mp h
    exact ((writes_stringU16 (hkey.trans (by decide))).pair (writes_u16 max)).guard h
  | findValueResponse => exact (writes_values h.1).pair (writes_nodes h.2)
  | error =>
    have hmessage := errorFits_iff.mp h
    exact ((writes_u16 code).pair (writes_stringU16 (hmessage.trans (by decide)))).guard h

theorem writes_header (m : RpcMessage) : Writes writeHeader m 44 := by
  have hmagic : Writes (fun _ : Unit => some kMagic) () 4 := ⟨kMagic, rfl, rfl⟩
  have hversion : Writes (fun _ : Unit => some [kVersion]) () 1 := ⟨[kVersion], rfl, rfl⟩
  have htype : Writes putType m.type 1 := ⟨_, rfl, rfl⟩
  exact hmagic.pair (hversion.pair (htype.pair
    ((writes_u32 m.txId).pair ((writes_u16 m.sourcePort).pair (writes_nodeId m.senderId)))))

theorem exists_encodeMessage {m : RpcMessage} (h : m.Fits isAddress) (hsize : m.packetBytes ≤ kMaxPacketBytes) :
    ∃ packet, encodeMessage isAddress m = some packet := by
  obtain ⟨header, hheader, hheaderSize⟩ := writes_header m
  obtain ⟨body, hbody, hbodySize⟩ := writes_body h
  refine ⟨header ++ body, encodeMessage_eq_some.mpr ⟨header, body, hheader, hbody, rfl, ?_, ?_⟩⟩
  · intro hnil
    have hlength := congrArg List.length hnil
    rw [List.length_append, List.length_nil] at hlength
    omega
  · rw [List.length_append, hheaderSize, hbodySize]
    exact hsize

end Acceptance

/-- A message within the limits of the format comes back from its datagram, and an accepted datagram is the encoding
of its message, up to the flag byte of an announce response. -/
theorem dht_messages_round_trip (isAddress : Bytes → Bool) :
    (∀ m : RpcMessage, m.Fits isAddress → m.packetBytes ≤ kMaxPacketBytes → m.carried = m →
      ∃ packet, encodeMessage isAddress m = some packet ∧ decodeMessage isAddress packet = some m) ∧
    (∀ payload m, decodeMessage isAddress payload = some m →
      m.carried = m ∧ (encodeMessage isAddress m = some payload ∨
        m.type = .announcePeerResponse ∧ m.accepted = true ∧
          ∃ front, ∃ flag : UInt8, 2 ≤ flag ∧ payload = front ++ [flag] ∧
            encodeMessage isAddress m = some (front ++ [1]))) := by
  constructor
  · intro m hfits hsize hcarried
    obtain ⟨packet, hpacket⟩ := exists_encodeMessage hfits hsize
    refine ⟨packet, hpacket, ?_⟩
    rw [decodeMessage_encodeMessage hpacket, hcarried]
  · intro payload m h
    exact encodeMessage_of_decodeMessage h

def announceAccepted (flag : UInt8) : Bytes :=
  kMagic ++ [kVersion, RpcType.announcePeerResponse.code, 0, 0, 0, 42, 0x24, 0xB8] ++ List.replicate 32 0xAA ++ [flag]

/-- Flags 1 and 2 of an announce response are one message, which is encoded with flag 1. -/
theorem announce_flags_collide :
    ∃ m : RpcMessage, decodeMessage (fun _ => false) (announceAccepted 1) = some m ∧
      decodeMessage (fun _ => false) (announceAccepted 2) = some m ∧
      encodeMessage (fun _ => false) m = some (announceAccepted 1) ∧ announceAccepted 1 ≠ announceAccepted 2 :=
  ⟨{ type := .announcePeerResponse, txId := 42, sourcePort := 9400, senderId := ⟨List.replicate 32 0xAA, rfl⟩,
     accepted := true }, by decide, by decide, by decide, by decide⟩

end Tightrope.P2p.Dht
