import Discv5.External

/-!
# Node addresses and contacts

`src/node_info.rs`, and the parts of `std::net` and of the `enr` crate it
is built on. A node is addressed by its UDP socket and its node id; a
contact adds the public key to talk to it with and its record, if known.

The record type `Enr` and the secp256k1 public key type `Pk` stay
parameters. `EnrApi` lists what the handler reads of a record; the
`Ed25519` key variants carry no key here, since every use of them in the
crate only reports that the key type is not supported.
-/

namespace Discv5

open Rust

/-- `Ipv4Addr::new`: the address of four octets. -/
def Ipv4Addr.new (a b c d : UInt8) : Arr UInt8 4 := ⟨[a, b, c, d], rfl⟩

/-- `std::net::SocketAddrV4`. -/
structure SocketAddrV4 where
  ip : Arr UInt8 4
  port : UInt16
  deriving DecidableEq

/-- `std::net::SocketAddrV6`. -/
structure SocketAddrV6 where
  ip : Arr UInt8 16
  port : UInt16
  flowinfo : UInt32
  scopeId : UInt32
  deriving DecidableEq

/-- `std::net::SocketAddr`. -/
inductive SocketAddr where
  | v4 (addr : SocketAddrV4)
  | v6 (addr : SocketAddrV6)
  deriving DecidableEq

/-- `NodeAddress`: the socket and node id a session is keyed by. -/
structure NodeAddress where
  socketAddr : SocketAddr
  nodeId : NodeId
  deriving DecidableEq

/-- `enr::CombinedKey`: the local node's secret key. -/
inductive CombinedKey (Sk : Type) where
  | secp256k1 (key : Sk)
  | ed25519
  deriving DecidableEq

/-- `enr::CombinedPublicKey`. -/
inductive CombinedPublicKey (Pk : Type) where
  | secp256k1 (key : Pk)
  | ed25519
  deriving DecidableEq

/-- What the crate reads of a node record: its sequence number, public key,
node id and advertised UDP sockets, and the node id of a bare public key
(`From<CombinedPublicKey> for NodeId`). -/
structure EnrApi (Enr Pk : Type) where
  seq : Enr → UInt64
  publicKey : Enr → CombinedPublicKey Pk
  nodeId : Enr → NodeId
  udp4Socket : Enr → Option SocketAddrV4
  udp6Socket : Enr → Option SocketAddrV6
  keyNodeId : CombinedPublicKey Pk → NodeId

variable {Enr Pk : Type}

/-- `NodeContact`: the key to use for communications with the node, the
address to contact it at, and its record if known. -/
structure NodeContact (Enr Pk : Type) where
  publicKey : CombinedPublicKey Pk
  socketAddr : SocketAddr
  enr : Option Enr
  deriving DecidableEq

/-- `NodeContact::node_id`: the record's node id, else the key's. -/
def NodeContact.nodeId (api : EnrApi Enr Pk) (contact : NodeContact Enr Pk) : NodeId :=
  match contact.enr with
  | some enr => api.nodeId enr
  | none => api.keyNodeId contact.publicKey

/-- `NodeContact::node_address`. -/
def NodeContact.nodeAddress (api : EnrApi Enr Pk) (contact : NodeContact Enr Pk) :
    NodeAddress :=
  ⟨contact.socketAddr, contact.nodeId api⟩

/-- `NodeContact::seq_no`. -/
def NodeContact.seqNo (api : EnrApi Enr Pk) (contact : NodeContact Enr Pk) : Option UInt64 :=
  contact.enr.map api.seq

@[simp] theorem NodeContact.socketAddr_nodeAddress (api : EnrApi Enr Pk)
    (contact : NodeContact Enr Pk) :
    (contact.nodeAddress api).socketAddr = contact.socketAddr := rfl

end Discv5
