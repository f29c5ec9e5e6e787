import Tightrope.Core.Ascii

namespace Tightrope.Core

open Bytes

inductive IpAddress where
  | v4 (bits : BitVec 32)
  | v6 (bytes : Vector UInt8 16) (scopeId : UInt32)
  deriving DecidableEq

structure NetworkV4 where
  address : BitVec 32
  prefixLength : ℕ
  prefixLength_le : prefixLength ≤ 32
  deriving DecidableEq

structure NetworkV6 where
  address : Vector UInt8 16
  prefixLength : ℕ
  prefixLength_le : prefixLength ≤ 128
  deriving DecidableEq

inductive IpNetwork where
  | v4 (network : NetworkV4)
  | v6 (network : NetworkV6)
  deriving DecidableEq

/-- What the networking library does with addresses and networks: it reads and writes their texts and derives the masks
and the network parts. -/
structure IpText where
  makeAddress : Bytes → Option IpAddress
  toText : IpAddress → Bytes
  makeNetworkV4 : Bytes → Option NetworkV4
  makeNetworkV6 : Bytes → Option NetworkV6
  netmask : NetworkV4 → BitVec 32
  networkV4 : NetworkV4 → BitVec 32
  networkV6 : NetworkV6 → Vector UInt8 16

section Text

variable (ip : IpText)

def isIpInNetworkV4 (address : BitVec 32) (network : NetworkV4) : Bool :=
  address &&& ip.netmask network = ip.networkV4 network

def byteMask (n : ℕ) : UInt8 := 0xFF <<< (8 - UInt8.ofNat n)

def isIpInNetworkV6 (address : Vector UInt8 16) (network : NetworkV6) : Bool :=
  let networkBytes := ip.networkV6 network
  let fullBytes := network.prefixLength / 8
  let partialBits := network.prefixLength % 8
  (List.finRange 16).all fun index =>
    if index.val < fullBytes then address.get index = networkBytes.get index
    else if index.val = fullBytes ∧ partialBits ≠ 0 then
      address.get index &&& byteMask partialBits = networkBytes.get index &&& byteMask partialBits
    else true

def parseAddress (value : Bytes) : Option IpAddress :=
  if trimAscii value = [] then none else ip.makeAddress (trimAscii value)

def normalizeIpAddress (value : Bytes) : Option Bytes := (parseAddress ip value).map ip.toText

def isValidIpAddress (value : Bytes) : Bool := (parseAddress ip value).isSome

def parseIpNetwork (cidr : Bytes) : Option IpNetwork :=
  if trimAscii cidr = [] then none
  else ((ip.makeNetworkV4 (trimAscii cidr)).map .v4).or ((ip.makeNetworkV6 (trimAscii cidr)).map .v6)

def isIpInNetwork (ipAddress : Bytes) (network : IpNetwork) : Bool :=
  match parseAddress ip ipAddress, network with
  | some (.v4 bits), .v4 network => isIpInNetworkV4 ip bits network
  | some (.v6 bytes _), .v6 network => isIpInNetworkV6 ip bytes network
  | _, _ => false

@[simp] theorem parseAddress_trimAscii (value : Bytes) : parseAddress ip (trimAscii value) = parseAddress ip value := by
  simp [parseAddress]

@[simp] theorem isValidIpAddress_trimAscii (value : Bytes) :
    isValidIpAddress ip (trimAscii value) = isValidIpAddress ip value := by
  simp [isValidIpAddress]

@[simp] theorem normalizeIpAddress_trimAscii (value : Bytes) :
    normalizeIpAddress ip (trimAscii value) = normalizeIpAddress ip value := by
  simp [normalizeIpAddress]

end Text

end Tightrope.Core
