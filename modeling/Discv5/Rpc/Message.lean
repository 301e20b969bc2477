import Discv5.External

/-!
# RPC messages

`src/rpc.rs`: the six message kinds of the discv5 wire protocol and their
RLP codec. A message is its type byte followed by one RLP list holding the
request id and the fields of the kind.

`u64` fields are `UInt64`, `NonZeroU16` is a structure carrying its
invariant, and IP addresses are kept by their octets. The RLP functions are
those of the `alloy_rlp` parameter (`RlpCodec`); the record type of NODES is
a parameter with its codec (`EnrCodec`), and `Enr::size` is the length of
the record's encoding. The decoder returns an `Outcome`, since the record
loop of NODES advances its buffer by a length the record reports.
-/

namespace Discv5

open Rust

/-- `RequestId`: the raw bytes of the id. -/
structure RequestId where
  bytes : List UInt8
  deriving DecidableEq, Repr

/-- `std::num::NonZeroU16`. -/
structure NonZeroU16 where
  val : UInt16
  ne_zero : val ≠ 0
  deriving DecidableEq

/-- `std::net::IpAddr`, by the octets of the address. -/
inductive IpAddr where
  | v4 (octets : Arr UInt8 4)
  | v6 (octets : Arr UInt8 16)
  deriving DecidableEq

/-- `Ipv6Addr::is_loopback`: the address `::1`. -/
def Ipv6Addr.isLoopback (octets : Arr UInt8 16) : Bool :=
  octets.toList = List.replicate 15 0 ++ [1]

/-- `Ipv6Addr::to_ipv4`: the embedded address of an IPv4-compatible
(`::a.b.c.d`) or IPv4-mapped (`::ffff:a.b.c.d`) address, that is of
segments `[0, 0, 0, 0, 0, 0 | 0xffff, ab, cd]`. -/
def Ipv6Addr.toIpv4 (octets : Arr UInt8 16) : Option (Arr UInt8 4) :=
  if octets.toList.take 10 = List.replicate 10 0 ∧
      (octets.toList.drop 10).take 2 ∈ [[0, 0], [0xff, 0xff]] then
    some ⟨octets.toList.drop 12, by rw [List.length_drop, octets.length_toList]⟩
  else none

inductive RequestBody where
  | ping (enrSeq : UInt64)
  | findNode (distances : List UInt64)
  | talk (protocol request : List UInt8)
  deriving DecidableEq

inductive ResponseBody (Enr : Type) where
  | pong (enrSeq : UInt64) (ip : IpAddr) (port : NonZeroU16)
  | nodes (total : UInt64) (nodes : List Enr)
  | talk (response : List UInt8)
  deriving DecidableEq

structure Request where
  id : RequestId
  body : RequestBody
  deriving DecidableEq

structure Response (Enr : Type) where
  id : RequestId
  body : ResponseBody Enr
  deriving DecidableEq

inductive Message (Enr : Type) where
  | request (r : Request)
  | response (r : Response Enr)
  deriving DecidableEq

variable {Enr : Type} (rlp : RlpCodec)

/-- `Request::msg_type`. -/
def Request.msgType (r : Request) : UInt8 :=
  match r.body with
  | .ping .. => 1
  | .findNode .. => 3
  | .talk .. => 5

/-- `Response::msg_type`. -/
def Response.msgType (r : Response Enr) : UInt8 :=
  match r.body with
  | .pong .. => 2
  | .nodes .. => 4
  | .talk .. => 6

/-- `Response::match_request`: whether the response answers a request of that kind. -/
def Response.matchRequest (r : Response Enr) (req : RequestBody) : Bool :=
  match r.body, req with
  | .pong .., .ping .. => true
  | .nodes .., .findNode .. => true
  | .talk .., .talk .. => true
  | _, _ => false

/-- The frame every message kind shares: the type byte, then a list header
over the encoded fields. -/
def encodeFrame (msgType : UInt8) (list : List UInt8) : List UInt8 :=
  [msgType] ++ rlp.encodeHeader ⟨true, list.length⟩ ++ list

/-- `Request::encode`. -/
def Request.encode (r : Request) : List UInt8 :=
  let id := rlp.encodeBytes r.id.bytes
  encodeFrame rlp r.msgType <|
    match r.body with
    | .ping enrSeq => id ++ rlp.encodeUint enrSeq.toNat
    | .findNode distances => id ++ rlp.encodeList (distances.map fun d => rlp.encodeUint d.toNat)
    | .talk protocol request => id ++ rlp.encodeBytes protocol ++ rlp.encodeBytes request

-- `ref_test_encode_request_ping` and `ref_test_encode_request_findnode`
example : (⟨⟨[1]⟩, .ping 1⟩ : Request).encode .reference = [0x01, 0xc2, 0x01, 0x01] := by decide
example : (⟨⟨[1]⟩, .findNode [256]⟩ : Request).encode .reference =
    [0x03, 0xc5, 0x01, 0xc3, 0x82, 0x01, 0x00] := by decide

/-- `Ipv4Addr::encode` and `Ipv6Addr::encode`: the octets as a byte string. -/
def IpAddr.encode : IpAddr → List UInt8
  | .v4 octets => rlp.encodeBytes octets.toList
  | .v6 octets => rlp.encodeBytes octets.toList

/-- `Response::encode`. A non-empty NODES list is written as a list header
over the concatenated records; the empty one as `Vec::encode` writes it. -/
def Response.encode (c : EnrCodec Enr) (r : Response Enr) : List UInt8 :=
  let id := rlp.encodeBytes r.id.bytes
  encodeFrame rlp r.msgType <|
    match r.body with
    | .pong enrSeq ip port =>
      id ++ rlp.encodeUint enrSeq.toNat ++ ip.encode rlp ++ rlp.encodeUint port.val.toNat
    | .nodes total nodes =>
      id ++ rlp.encodeUint total.toNat ++
        if !nodes.isEmpty then
          let out := nodes.flatMap c.encode
          rlp.encodeHeader ⟨true, out.length⟩ ++ out
        else rlp.encodeList (nodes.map c.encode)
    | .talk response => id ++ rlp.encodeBytes response

-- `ref_test_encode_response_ping` and `ref_test_encode_response_nodes_empty`, with no records
example : (⟨⟨[1]⟩, .pong 1 (.v4 ⟨[127, 0, 0, 1], rfl⟩) ⟨5000, by decide⟩⟩ : Response Unit).encode
    .reference ⟨fun _ => [], fun _ => .error .inputTooShort, NodeId.parse32⟩ =
      [0x02, 0xca, 0x01, 0x01, 0x84, 0x7f, 0x00, 0x00, 0x01, 0x82, 0x13, 0x88] := by decide
example : (⟨⟨[1]⟩, .nodes 1 []⟩ : Response Unit).encode .reference
    ⟨fun _ => [], fun _ => .error .inputTooShort, NodeId.parse32⟩ = [0x04, 0xc3, 0x01, 0x01, 0xc0] := by
  decide

/-- `Message::encode`. -/
def Message.encode (c : EnrCodec Enr) : Message Enr → List UInt8
  | .request r => r.encode rlp
  | .response r => r.encode rlp c

/-- An RLP error of a callee, passed on by `?`. -/
def liftRlp {α : Type} (x : Except DecoderError α) : Outcome DecoderError α :=
  Outcome.ofExcept id x

/-- The record loop of the NODES arm of `Message::decode`: while the payload
is not empty, read the next record's header, decode a record from the first
`payload_length + 2` bytes, and advance by the record's size.

The loop ends because each pass advances the payload by the size of a
record, at least one byte for a codec with non-empty encodings; `fuel`
bounds the passes (the caller gives the payload's length), and running out
of it stands for a loop that does not end. -/
def decodeNodesLoop (c : EnrCodec Enr) : Nat → List UInt8 → Outcome DecoderError (List Enr × List UInt8)
  | _, [] => pure ([], [])
  | 0, _ :: _ => .panic
  | fuel + 1, payload => do
    let (nodeHeader, _) ← liftRlp (rlp.decodeHeader payload)
    if !nodeHeader.list then throw (.custom "Invalid format of header")
    if nodeHeader.payloadLength + 2 > payload.length then
      throw (.custom "Payload size is smaller than payload_length")
    let (enrRlp, _) ← liftRlp (c.decode ((payload.take (nodeHeader.payloadLength + 2))))
    let payload ← advance payload (c.encode enrRlp).length
    let (enrs, payload) ← decodeNodesLoop c fuel payload
    pure (enrRlp :: enrs, payload)

/-- The IP address of a PONG from its bytes: four bytes are IPv4; sixteen
are IPv6, given as IPv4 when they embed an IPv4 address and are not the
loopback `::1`. -/
def decodeIp (ipBytes : List UInt8) : Outcome DecoderError IpAddr :=
  if h4 : ipBytes.length = 4 then pure (.v4 ⟨ipBytes, h4⟩)
  else if h16 : ipBytes.length = 16 then
    let ipv6 : Arr UInt8 16 := ⟨ipBytes, h16⟩
    if Ipv6Addr.isLoopback ipv6 then
      -- `Ipv6Addr::to_ipv4` returns an IPv4 address for the IPv6 loopback address
      pure (.v6 ipv6)
    else
      match Ipv6Addr.toIpv4 ipv6 with
      | some ipv4 => pure (.v4 ipv4)
      | none => pure (.v6 ipv6)
  else throw (.custom "Incorrect List Length")

/-- `Message::decode` after the id: the fields of the kind `msgType` from
the rest of the message list. -/
def Message.decodeBody (c : EnrCodec Enr) (msgType : Nat) (id : RequestId) (payload : List UInt8) :
    Outcome DecoderError (Message Enr) :=
  match msgType with
  | 1 => do
    -- PingRequest
    let (enrSeq, payload) ← liftRlp (rlp.decodeUint 8 payload)
    if payload ≠ [] then throw (.custom "Payload should be empty")
    pure (.request ⟨id, .ping (UInt64.ofNat enrSeq)⟩)
  | 2 => do
    -- PingResponse
    let (enrSeq, payload) ← liftRlp (rlp.decodeUint 8 payload)
    let (ipBytes, payload) ← liftRlp (rlp.decodeBytes payload false)
    let ip ← decodeIp ipBytes
    let (rawPort, payload) ← liftRlp (rlp.decodeUint 2 payload)
    if hport : UInt16.ofNat rawPort ≠ 0 then
      if payload ≠ [] then throw (.custom "Payload should be empty")
      pure (.response ⟨id, .pong (UInt64.ofNat enrSeq) ip ⟨UInt16.ofNat rawPort, hport⟩⟩)
    else throw (.custom "PONG response port number invalid")
  | 3 => do
    -- FindNodeRequest
    let (distances, payload) ← liftRlp (rlp.decodeUintList payload)
    let distances := distances.map UInt64.ofNat
    if distances.any (fun d => 256 < d.toNat) then
      throw (.custom "FINDNODE request distance invalid")
    if payload ≠ [] then throw (.custom "Payload should be empty")
    pure (.request ⟨id, .findNode distances⟩)
  | 4 => do
    -- NodesResponse
    let (total, payload) ← liftRlp (rlp.decodeUint 8 payload)
    let (header, payload) ← liftRlp (rlp.decodeHeader payload)
    if !header.list then throw (.custom "Invalid format of header")
    let (nodes, payload) ← decodeNodesLoop rlp c payload.length payload
    if payload ≠ [] then throw (.custom "Payload should be empty")
    pure (.response ⟨id, .nodes (UInt64.ofNat total) nodes⟩)
  | 5 => do
    -- Talk Request
    let (protocol, payload) ← liftRlp (rlp.decodeBytes payload false)
    let (talkRequest, payload) ← liftRlp (rlp.decodeBytes payload false)
    if payload ≠ [] then throw (.custom "Payload should be empty")
    pure (.request ⟨id, .talk protocol talkRequest⟩)
  | 6 => do
    -- Talk Response
    let (talkResponse, payload) ← liftRlp (rlp.decodeBytes payload false)
    if payload ≠ [] then throw (.custom "Payload should be empty")
    pure (.response ⟨id, .talk talkResponse⟩)
  | _ => throw (.custom "Unknown RPC message type")

/-- `Message::decode`. -/
def Message.decode (c : EnrCodec Enr) (data : List UInt8) : Outcome DecoderError (Message Enr) := do
  if data.length < 3 then throw .inputTooShort
  let msgType ← index data 0
  let payload := data.drop 1
  let (header, payload) ← liftRlp (rlp.decodeHeader payload)
  if !header.list then throw (.custom "Invalid format of header")
  if header.payloadLength ≠ payload.length then throw (.custom "Reject the extra data")
  let (idBytes, payload) ← liftRlp (rlp.decodeBytes payload false)
  let id : RequestId := ⟨idBytes⟩
  Message.decodeBody rlp c msgType.toNat id payload

-- `reject_extra_data`: a TALK response whose id is the single byte `0`
example : Message.decode .reference
    (⟨fun _ => [], fun _ => .error .inputTooShort, NodeId.parse32⟩ : EnrCodec Unit) [6, 194, 0, 75] =
    .ok (.response ⟨⟨[0]⟩, .talk [75]⟩) := by decide
example : Message.decode .reference
    (⟨fun _ => [], fun _ => .error .inputTooShort, NodeId.parse32⟩ : EnrCodec Unit)
    [6, 193, 0, 75, 252] = .err (.custom "Reject the extra data") := by decide

end Discv5
