import Discv5.Handler.ActiveRequests

/-!
# The handler

`src/handler/mod.rs`. The handler owns the sessions with peers and drives
the handshakes that establish them. Its main loop takes one event at a
time: a request, response or WHOAREYOU answer from the service, a packet
from the socket, the timeout of a request, or the expiry of a challenge.
`Handler.step` is one turn of that loop and `Handler.run` a sequence of
turns.

Each `async fn` of the handler is a function of the handler's state. What
it sends to the service and to the socket is appended to the two output
logs `serviceSend` and `socketSend`, and the random values it draws come
from the state's `rng`. A panic (`Message::decode` on a NODES record the
buffer cannot hold, `expect` on a WHOAREYOU's authenticated data) stops the
handler task: the functions that can panic return `none`.

Maps keyed by a node address for which the proofs count entries are lists
of pairs (`ListMap`); the others are functions, an absent entry being the
value `0`, `[]` or `none` the source never stores. Sessions are a function
too: the eviction and timeout of the session cache are an event of their
own, `sessionExpired`.
-/

namespace Discv5

open Rust Bytes Primitives

variable {Enr Sk Pk : Type}

/-- `ConnectionDirection`. -/
inductive ConnectionDirection where
  | incoming
  | outgoing
  deriving DecidableEq

/-- `WhoAreYouRef`: the node and the nonce of the packet to challenge. -/
structure WhoAreYouRef where
  nodeAddress : NodeAddress
  messageNonce : MessageNonce
  deriving DecidableEq

/-- The variants of `RequestError` the handler reports. `EncryptionFailed`
carries the session error the source formats into its text. -/
inductive RequestError (Enr : Type) where
  | timeout
  | selfRequest
  | invalidRemoteEnr
  | invalidRemotePacket
  | encryptionFailed (error : Error Enr)

/-- `HandlerIn`: what the service asks of the handler. -/
inductive HandlerIn (Enr Pk : Type) where
  | request (contact : NodeContact Enr Pk) (request : Request)
  | response (nodeAddress : NodeAddress) (response : Response Enr)
  | whoAreYou (ref : WhoAreYouRef) (enr : Option Enr)

/-- `HandlerOut`: what the handler tells the service. -/
inductive HandlerOut (Enr : Type) where
  | established (enr : Enr) (socketAddr : SocketAddr) (direction : ConnectionDirection)
  | request (nodeAddress : NodeAddress) (request : Request)
  | response (nodeAddress : NodeAddress) (response : Response Enr)
  | whoAreYou (ref : WhoAreYouRef)
  | requestFailed (id : RequestId) (error : RequestError Enr)
  | unverifiableEnr (enr : Enr) (socket : SocketAddr) (nodeId : NodeId)

/-- `socket::InboundPacket`: a decoded packet and its authenticated data. -/
structure InboundPacket (Enr : Type) where
  srcAddress : SocketAddr
  header : PacketHeader Enr
  message : List UInt8
  authenticatedData : List UInt8

/-- `socket::OutboundPacket`. -/
structure OutboundPacket (Enr : Type) where
  nodeAddress : NodeAddress
  packet : Packet Enr

/-- `cidr::Ipv4Cidr`: an address and the length of its network prefix. -/
structure Ipv4Cidr where
  address : Arr UInt8 4
  networkLength : Nat

/-- What the handler is run with: the cryptography, the record interface,
the protocol identity of the packets, the record codec, the RLP codec, and
`Ipv4Cidr::contains` of the `cidr` crate, which no result here relies on. -/
structure Env (Enr Sk Pk : Type) where
  suite : Crypto.Suite Sk Pk
  api : EnrApi Enr Pk
  protocol : ProtocolIdentity
  codec : EnrCodec Enr
  rlp : RlpCodec
  cidrContains : Ipv4Cidr → Arr UInt8 4 → Bool

/-- `Handler`, with the fields its loop reads and writes. -/
structure Handler (Enr Sk Pk : Type) where
  requestRetries : UInt8
  nodeId : NodeId
  enr : Enr
  key : CombinedKey Sk
  activeRequests : ActiveRequests Enr Pk
  /-- The number of responses expected from each socket, which lets them
  through the packet filter. -/
  filterExpectedResponses : SocketAddr → Nat
  pendingRequests : NodeAddress → List (PendingRequest Enr Pk)
  activeChallenges : List (NodeAddress × Challenge Enr)
  sessions : NodeAddress → Option Session
  listenSockets : List SocketAddr
  allowedCidr : Option Ipv4Cidr
  rng : Rng
  serviceSend : List (HandlerOut Enr)
  socketSend : List (OutboundPacket Enr)

/-- The authenticated data of a WHOAREYOU packet is 63 bytes, so
`ChallengeData::try_from(..).expect(..)` in `send_challenge` cannot fail. -/
theorem length_authenticatedData_newWhoareyou (P : ProtocolIdentity) (c : EnrCodec Enr)
    (requestNonce : MessageNonce) (idNonce : IdNonce) (enrSeq : UInt64) (iv : BitVec 128) :
    ((Packet.newWhoareyou requestNonce idNonce enrSeq iv : Packet Enr).authenticatedData P c).length
      = 63 := by
  simp [Packet.newWhoareyou, Packet.authenticatedData, PacketHeader.encode, PacketKind.encode,
    P.protocolIdBytes.length_toList, P.protocolVersionBytes.length_toList,
    requestNonce.length_toList, idNonce.length_toList, messageNonceLength, idNonceLength]

namespace Handler

/-- `Handler::spawn`: the state the loop starts in. -/
def new (env : Env Enr Sk Pk) (enr : Enr) (key : CombinedKey Sk) (requestRetries : UInt8)
    (listenSockets : List SocketAddr) (allowedCidr : Option Ipv4Cidr) (rng : Rng) :
    Handler Enr Sk Pk where
  requestRetries := requestRetries
  nodeId := env.api.nodeId enr
  enr := enr
  key := key
  activeRequests := .new
  filterExpectedResponses := fun _ => 0
  pendingRequests := fun _ => []
  activeChallenges := []
  sessions := fun _ => none
  listenSockets := listenSockets
  allowedCidr := allowedCidr
  rng := rng
  serviceSend := []
  socketSend := []

/-! ## Small steps -/

/-- `n` bytes of `rand::random()`. -/
def drawBytes (h : Handler Enr Sk Pk) (n : Nat) : Arr UInt8 n × Handler Enr Sk Pk :=
  (⟨(h.rng.bytes n).1, Rng.length_bytes h.rng n⟩, { h with rng := (h.rng.bytes n).2 })

/-- A `u128` of `rand::random()`, an IV. -/
def drawU128 (h : Handler Enr Sk Pk) : BitVec 128 × Handler Enr Sk Pk :=
  let (bytes, h) := h.drawBytes 16
  (BitVec.ofNat 128 (fromBeBytes bytes.toList), h)

/-- `self.service_send.send(..)`. -/
def emit (h : Handler Enr Sk Pk) (out : HandlerOut Enr) : Handler Enr Sk Pk :=
  { h with serviceSend := h.serviceSend ++ [out] }

/-- `Handler::send`: a packet to the socket task. -/
def send (h : Handler Enr Sk Pk) (nodeAddress : NodeAddress) (packet : Packet Enr) :
    Handler Enr Sk Pk :=
  { h with socketSend := h.socketSend ++ [⟨nodeAddress, packet⟩] }

/-- `Handler::remove_expected_response`: the count goes down, saturating,
and an entry that reaches zero is removed. -/
def removeExpectedResponse (h : Handler Enr Sk Pk) (socketAddr : SocketAddr) :
    Handler Enr Sk Pk :=
  { h with filterExpectedResponses := (Function.update h.filterExpectedResponses socketAddr
      (h.filterExpectedResponses socketAddr - 1)) }

/-- `Handler::add_expected_response`. -/
def addExpectedResponse (h : Handler Enr Sk Pk) (socketAddr : SocketAddr) : Handler Enr Sk Pk :=
  { h with filterExpectedResponses := (Function.update h.filterExpectedResponses socketAddr
      (h.filterExpectedResponses socketAddr + 1)) }

/-- `RecvHandler`'s `permitted`: a socket with an entry passes the filter. -/
def permitted (h : Handler Enr Sk Pk) (socketAddr : SocketAddr) : Bool :=
  h.filterExpectedResponses socketAddr ≠ 0

/-- A failure reported to the service, for a request the service made. -/
def reportFailure (h : Handler Enr Sk Pk) (requestId : HandlerReqId) (error : RequestError Enr) :
    Handler Enr Sk Pk :=
  match requestId with
  | .internal _ => h
  | .external id => h.emit (.requestFailed id error)

/-- `Handler::is_awaiting_session_to_be_established`. -/
def isAwaitingSessionToBeEstablished (h : Handler Enr Sk Pk) (nodeAddress : NodeAddress) : Bool :=
  match h.sessions nodeAddress with
  | some _ => false
  | none =>
    match h.activeRequests.get nodeAddress with
    | some requests => requests.any (·.initiatingSession)
    | none => false

variable (env : Env Enr Sk Pk)

/-- `session.encrypt_message::<P>(self.node_id, message)` with the session
of the address; the counted session is stored back. -/
def encryptMessage (h : Handler Enr Sk Pk) (nodeAddress : NodeAddress) (session : Session)
    (message : List UInt8) : Except (Error Enr) (Packet Enr) × Handler Enr Sk Pk :=
  let (randomNonce, h) := h.drawBytes 8
  let (iv, h) := h.drawU128
  let (result, session) :=
    session.encryptMessage env.suite env.protocol env.codec h.nodeId message randomNonce iv
  (result, { h with sessions := Function.update h.sessions nodeAddress (some session) })

/-- `Handler::insert_active_request`: under the address of the call's contact. -/
def insertActiveRequest (h : Handler Enr Sk Pk) (call : RequestCall Enr Pk) : Handler Enr Sk Pk :=
  { h with activeRequests := h.activeRequests.insert (call.contact.nodeAddress env.api) call }

/-- `Handler::verify_enr`: the record names the node, and advertises the
socket it was seen at or none (an IPv4 port may differ, and an IPv4 address
in the allowed range passes). -/
def verifyEnr (h : Handler Enr Sk Pk) (enr : Enr) (nodeAddress : NodeAddress) : Bool :=
  env.api.nodeId enr = nodeAddress.nodeId &&
    match nodeAddress.socketAddr with
    | .v4 socketAddr =>
      match env.api.udp4Socket enr with
      | none => true
      | some advertisedAddr =>
        if socketAddr.ip = advertisedAddr.ip then true
        else
          match h.allowedCidr with
          | some cidr => env.cidrContains cidr socketAddr.ip
          | none => false
    | .v6 socketAddr =>
      match env.api.udp6Socket enr with
      | none => true
      | some advertisedAddr => socketAddr = advertisedAddr

/-! ## Failing requests -/

/-- `Handler::fail_session`: drop the session if asked, and fail every
pending and active request of the address, releasing one expected
response for each active one. -/
def failSession (h : Handler Enr Sk Pk) (nodeAddress : NodeAddress) (error : RequestError Enr)
    (removeSession : Bool) : Handler Enr Sk Pk :=
  let h := if removeSession then { h with sessions := Function.update h.sessions nodeAddress none }
    else h
  let toRemove := h.pendingRequests nodeAddress
  let h := { h with pendingRequests := Function.update h.pendingRequests nodeAddress [] }
  let h := toRemove.foldl (fun h req => h.reportFailure req.requestId error) h
  match h.activeRequests.removeRequests nodeAddress with
  | (none, ar) => { h with activeRequests := ar }
  | (some requests, ar) =>
    requests.foldl (fun h req =>
        (h.reportFailure req.requestId error).removeExpectedResponse nodeAddress.socketAddr)
      { h with activeRequests := ar }

/-- `Handler::fail_request`: report the call, then fail the session of its
contact. -/
def failRequest (h : Handler Enr Sk Pk) (call : RequestCall Enr Pk) (error : RequestError Enr)
    (removeSession : Bool) : Handler Enr Sk Pk :=
  (h.reportFailure call.requestId error).failSession (call.contact.nodeAddress env.api) error
    removeSession

/-! ## Sending -/

/-- `Handler::send_request`: a request to an address with a challenge or a
handshake under way is queued; otherwise it is sent, encrypted with the
session or as a random packet that opens a handshake, and the call awaits
its response. -/
def sendRequest (h : Handler Enr Sk Pk) (contact : NodeContact Enr Pk) (requestId : HandlerReqId)
    (request : RequestBody) : Except (RequestError Enr) Unit × Handler Enr Sk Pk :=
  let nodeAddress := contact.nodeAddress env.api
  if nodeAddress.socketAddr ∈ h.listenSockets then (.error .selfRequest, h)
  else if (ListMap.lookup h.activeChallenges nodeAddress).isSome ||
      h.isAwaitingSessionToBeEstablished nodeAddress then
    (.ok (), { h with pendingRequests := (Function.update h.pendingRequests nodeAddress
      (h.pendingRequests nodeAddress ++ [⟨contact, requestId, request⟩])) })
  else
    let sent : Except (RequestError Enr) (Packet Enr × Bool) × Handler Enr Sk Pk :=
      match h.sessions nodeAddress with
      | some session =>
        match h.encryptMessage env nodeAddress session
            ((⟨requestId.requestId, request⟩ : Request).encode env.rlp) with
        | (.ok packet, h) => (.ok (packet, false), h)
        | (.error e, h) => (.error (.encryptionFailed e), h)
      | none =>
        let (ciphertext, h) := h.drawBytes 44
        let (messageNonce, h) := h.drawBytes 12
        let (iv, h) := h.drawU128
        (.ok (Packet.newRandom h.nodeId ciphertext messageNonce iv, true), h)
    match sent with
    | (.error e, h) => (.error e, h)
    | (.ok (packet, initiatingSession), h) =>
      let call := RequestCall.new contact packet requestId request initiatingSession
      let h := h.addExpectedResponse nodeAddress.socketAddr
      let h := h.send nodeAddress packet
      (.ok (), { h with activeRequests := h.activeRequests.insert nodeAddress call })

/-- `Handler::send_response`: dropped without a session. -/
def sendResponse (h : Handler Enr Sk Pk) (nodeAddress : NodeAddress) (response : Response Enr) :
    Handler Enr Sk Pk :=
  match h.sessions nodeAddress with
  | none => h
  | some session =>
    match h.encryptMessage env nodeAddress session (response.encode env.rlp env.codec) with
    | (.ok packet, h) => h.send nodeAddress packet
    | (.error _, h) => h

/-- `Handler::send_challenge`: a WHOAREYOU for the packet of the reference,
unless one is out already. -/
def sendChallenge (h : Handler Enr Sk Pk) (ref : WhoAreYouRef) (remoteEnr : Option Enr) :
    Handler Enr Sk Pk :=
  let nodeAddress := ref.nodeAddress
  if (ListMap.lookup h.activeChallenges nodeAddress).isSome then h
  else
    let enrSeq := (remoteEnr.map env.api.seq).getD 0
    let (idNonce, h) := h.drawBytes 16
    let (iv, h) := h.drawU128
    let packet : Packet Enr := Packet.newWhoareyou ref.messageNonce idNonce enrSeq iv
    let challengeData : ChallengeData := ⟨packet.authenticatedData env.protocol env.codec,
      length_authenticatedData_newWhoareyou env.protocol env.codec ref.messageNonce idNonce enrSeq iv⟩
    let h := h.addExpectedResponse nodeAddress.socketAddr
    let h := h.send nodeAddress packet
    { h with activeChallenges := ListMap.insert h.activeChallenges nodeAddress ⟨challengeData, remoteEnr⟩ }

/-- `Handler::send_pending_requests`: send what was queued for the address;
a request that fails is reported if the service made it. -/
def sendPendingRequests (h : Handler Enr Sk Pk) (nodeAddress : NodeAddress) : Handler Enr Sk Pk :=
  let pendingRequests := h.pendingRequests nodeAddress
  let h := { h with pendingRequests := Function.update h.pendingRequests nodeAddress [] }
  pendingRequests.foldl (fun h req =>
      match h.sendRequest env req.contact req.requestId req.request with
      | (.ok (), h) => h
      | (.error e, h) => h.reportFailure req.requestId e) h

/-- One replayed call of `replay_active_requests`: encrypted with the stored
session, its old nonce and new packet are collected. -/
def replayEncrypt (nodeAddress : NodeAddress)
    (acc : List (MessageNonce × Packet Enr) × Handler Enr Sk Pk) (call : RequestCall Enr Pk) :
    List (MessageNonce × Packet Enr) × Handler Enr Sk Pk :=
  match acc.2.sessions nodeAddress with
  | none => acc
  | some session =>
    match acc.2.encryptMessage env nodeAddress session (call.encode env.rlp) with
    | (.ok packet, h) => (acc.1 ++ [(call.messageNonce, packet)], h)
    | (.error _, h) => (acc.1, h)

/-- `Handler::replay_active_requests`: after new keys, every call of the
address but the one of `messageNonce` is re-encrypted and re-sent. -/
def replayActiveRequests (h : Handler Enr Sk Pk) (nodeAddress : NodeAddress)
    (messageNonce : Option MessageNonce) : Handler Enr Sk Pk :=
  match h.sessions nodeAddress with
  | none => h
  | some _ =>
    let calls := ((h.activeRequests.get nodeAddress).getD []).filter fun call =>
      match messageNonce with
      | some nonce => call.messageNonce ≠ nonce
      | none => true
    let (packets, h) := calls.foldl (replayEncrypt env nodeAddress) ([], h)
    packets.foldl (fun h (oldNonce, packet) =>
      ({ h with activeRequests := h.activeRequests.updatePacket oldNonce packet }).send nodeAddress
        packet) h

/-- `Handler::new_session`: a second session with the address updates the
first and replays its calls; a first one is stored and the queued
requests go out. -/
def newSession (h : Handler Enr Sk Pk) (nodeAddress : NodeAddress) (session : Session)
    (messageNonce : Option MessageNonce) : Handler Enr Sk Pk :=
  match h.sessions nodeAddress with
  | some currentSession =>
    let h := { h with sessions := (Function.update h.sessions nodeAddress
      (some (currentSession.update session))) }
    h.replayActiveRequests env nodeAddress messageNonce
  | none =>
    let h := { h with sessions := Function.update h.sessions nodeAddress (some session) }
    h.sendPendingRequests env nodeAddress

/-! ## Receiving -/

/-- `Handler::handle_request_timeout`: a call that has been sent
`request_retries` times fails, releasing its expected response; another is
sent again. -/
def handleRequestTimeout (h : Handler Enr Sk Pk) (nodeAddress : NodeAddress)
    (call : RequestCall Enr Pk) : Handler Enr Sk Pk :=
  if call.retries ≥ h.requestRetries then
    (h.removeExpectedResponse nodeAddress.socketAddr).failRequest env call .timeout false
  else
    let h := h.send nodeAddress call.packet
    let call := { call with retries := call.retries + 1 }
    { h with activeRequests := h.activeRequests.insert nodeAddress call }

/-- `Handler::handle_challenge`: a WHOAREYOU for one of our packets is
answered with a handshake, and the session is set up; if we do not know the
peer's record, the session waits for an ENR request (FINDNODE at distance 0). -/
def handleChallenge (h : Handler Enr Sk Pk) (srcAddress : SocketAddr) (requestNonce : MessageNonce)
    (enrSeq : UInt64) (challengeData : ChallengeData) : Handler Enr Sk Pk :=
  match h.activeRequests.removeByNonce requestNonce with
  | (none, ar) => { h with activeRequests := ar }
  | (some (nodeAddress, call), ar) =>
    let h := { h with activeRequests := ar }
    if nodeAddress.socketAddr ≠ srcAddress then
      { h with activeRequests := h.activeRequests.insert nodeAddress call }
    else if call.messageNonce ≠ requestNonce then h
    else if call.handshakeSent then h.failRequest env call .invalidRemotePacket true
    else
      let updatedEnr := if enrSeq < env.api.seq h.enr then some h.enr else none
      let (ephemBytes, h) := h.drawBytes 32
      let (messageNonce, h) := h.drawBytes 12
      let (iv, h) := h.drawU128
      match Session.encryptWithHeader env.suite env.api env.protocol env.codec call.contact h.key
          updatedEnr h.nodeId challengeData (call.encode env.rlp)
          (env.suite.randomSigningKey ephemBytes.toList) messageNonce iv with
      | .error _ => h.failRequest env call .invalidRemotePacket true
      | .ok (authPacket, session) =>
        let nodeAddress := call.contact.nodeAddress env.api
        let authMessageNonce := authPacket.header.messageNonce
        let (h, session) : Handler Enr Sk Pk × Session :=
          match call.contact.enr with
          | some enr =>
            let connectionDirection :=
              if call.initiatingSession then ConnectionDirection.outgoing else .incoming
            let call := { call with packet := authPacket, handshakeSent := true,
                                    initiatingSession := false }
            let h := h.insertActiveRequest env call
            let h := h.send nodeAddress authPacket
            (h.emit (.established enr nodeAddress.socketAddr connectionDirection), session)
          | none =>
            let contact := call.contact
            let call := { call with packet := authPacket, handshakeSent := true }
            let h := h.insertActiveRequest env call
            let h := h.send nodeAddress authPacket
            let (idBytes, h) := h.drawBytes 8
            let id : RequestId := ⟨idBytes.toList⟩
            ((h.sendRequest env contact (.internal id) (.findNode [0])).2,
              { session with awaitingEnr := some id })
        h.newSession env nodeAddress session (some authMessageNonce)

/-- `Handler::handle_response`: the matching call completes, except for a
part of a NODES response in several parts, after which the call stays with
one part fewer to come. -/
def handleResponse (h : Handler Enr Sk Pk) (nodeAddress : NodeAddress) (response : Response Enr) :
    Handler Enr Sk Pk :=
  match h.activeRequests.removeRequest nodeAddress response.id with
  | (none, ar) => { h with activeRequests := ar }
  | (some call, ar) =>
    let h := { h with activeRequests := ar }
    let reinsert (remaining : UInt64) : Handler Enr Sk Pk :=
      ({ h with activeRequests := (h.activeRequests.insert nodeAddress
          { call with remainingResponses := some remaining }) }).emit
        (.response nodeAddress response)
    let multipart : Option (Handler Enr Sk Pk) :=
      match response.body with
      | .nodes total _ =>
        if total > 1 then
          match call.remainingResponses with
          | some remaining => if remaining - 1 ≠ 0 then some (reinsert (remaining - 1)) else none
          | none => some (reinsert (total - 1))
        else none
      | _ => none
    match multipart with
    | some h => h
    | none => (h.removeExpectedResponse nodeAddress.socketAddr).emit (.response nodeAddress response)

/-- `Handler::handle_message`: decrypt with the session and pass the
message on. A message no key opens fails the session and asks the service
for a WHOAREYOU; a response to the ENR request of a session awaiting one
settles the session. -/
def handleMessage (h : Handler Enr Sk Pk) (nodeAddress : NodeAddress) (messageNonce : MessageNonce)
    (message authenticatedData : List UInt8) : Option (Handler Enr Sk Pk) :=
  match h.sessions nodeAddress with
  | none => some (h.emit (.whoAreYou ⟨nodeAddress, messageNonce⟩))
  | some session =>
    let (result, session) : Except (Error Enr) (List UInt8) × Session :=
      session.decryptMessage env.suite messageNonce message authenticatedData
    let h := { h with sessions := Function.update h.sessions nodeAddress (some session) }
    match result with
    | .error _ =>
      let h := h.failSession nodeAddress .invalidRemotePacket true
      if (ListMap.lookup h.activeChallenges nodeAddress).isNone then
        some (h.emit (.whoAreYou ⟨nodeAddress, messageNonce⟩))
      else some h
    | .ok m =>
      match Message.decode env.rlp env.codec m with
      | .panic => none
      | .err _ => some h
      | .ok (.request request) => some (h.emit (.request nodeAddress request))
      | .ok (.response response) =>
        match session.awaitingEnr with
        | some requestId =>
          if response.id = requestId then
            let h := { h with sessions := (Function.update h.sessions nodeAddress
              (some { session with awaitingEnr := none })) }
            match response.body with
            | .nodes _ nodes =>
              match nodes.getLast? with
              | some enr =>
                if h.verifyEnr env enr nodeAddress then
                  some (h.emit (.established enr nodeAddress.socketAddr .outgoing))
                else
                  some ((h.emit (.unverifiableEnr enr nodeAddress.socketAddr nodeAddress.nodeId)).failSession
                    nodeAddress .invalidRemoteEnr true)
              | none => some (h.failSession nodeAddress .invalidRemoteEnr true)
            | _ => some (h.failSession nodeAddress .invalidRemoteEnr true)
          else some (h.handleResponse nodeAddress response)
        | none => some (h.handleResponse nodeAddress response)

/-- `Handler::handle_auth_message`: a handshake answering our challenge
establishes a session, and its message is handled with it. A bad signature
keeps the challenge; any other failure fails the session. -/
def handleAuthMessage (h : Handler Enr Sk Pk) (nodeAddress : NodeAddress)
    (messageNonce : MessageNonce) (idNonceSig ephemPubkey : List UInt8) (enrRecord : Option Enr)
    (message authenticatedData : List UInt8) : Option (Handler Enr Sk Pk) :=
  match ListMap.lookup h.activeChallenges nodeAddress with
  | none => some h
  | some challenge =>
    let h := { h with activeChallenges := ListMap.erase h.activeChallenges nodeAddress }
    match Session.establishFromChallenge env.suite env.api h.key h.nodeId nodeAddress.nodeId
        challenge idNonceSig ephemPubkey enrRecord with
    | .ok (session, enr) =>
      let h := h.removeExpectedResponse nodeAddress.socketAddr
      let h := if h.verifyEnr env enr nodeAddress then
          h.emit (.established enr nodeAddress.socketAddr .incoming)
        else h.emit (.unverifiableEnr enr nodeAddress.socketAddr nodeAddress.nodeId)
      let h := h.newSession env nodeAddress session none
      h.handleMessage env nodeAddress messageNonce message authenticatedData
    | .error (.invalidChallengeSignature challenge) =>
      some { h with activeChallenges := ListMap.insert h.activeChallenges nodeAddress challenge }
    | .error _ => some (h.failSession nodeAddress .invalidRemotePacket true)

/-- `Handler::process_inbound_packet`. -/
def processInboundPacket (h : Handler Enr Sk Pk) (inboundPacket : InboundPacket Enr) :
    Option (Handler Enr Sk Pk) :=
  let messageNonce := inboundPacket.header.messageNonce
  match inboundPacket.header.kind with
  | .whoAreYou _ enrSeq =>
    if hl : inboundPacket.authenticatedData.length = 63 then
      some (h.handleChallenge env inboundPacket.srcAddress messageNonce enrSeq
        ⟨inboundPacket.authenticatedData, hl⟩)
    else none
  | .handshake srcId idNonceSig ephemPubkey enrRecord =>
    h.handleAuthMessage env ⟨inboundPacket.srcAddress, srcId⟩ messageNonce idNonceSig ephemPubkey
      enrRecord inboundPacket.message inboundPacket.authenticatedData
  | .message srcId =>
    h.handleMessage env ⟨inboundPacket.srcAddress, srcId⟩ messageNonce inboundPacket.message
      inboundPacket.authenticatedData

/-! ## The loop -/

/-- What wakes the handler's loop. -/
inductive Event (Enr Pk : Type) where
  | service (input : HandlerIn Enr Pk)
  | inbound (packet : InboundPacket Enr)
  /-- The timer of a request's nonce fired. -/
  | requestTimeout (nonce : MessageNonce)
  /-- The timer of a challenge fired. -/
  | challengeExpired (nodeAddress : NodeAddress)
  /-- The session cache dropped a session, by timeout or eviction. -/
  | sessionExpired (nodeAddress : NodeAddress)

/-- One turn of `Handler::start`. -/
def step (h : Handler Enr Sk Pk) : Event Enr Pk → Option (Handler Enr Sk Pk)
  | .service (.request contact request) =>
    match h.sendRequest env contact (.external request.id) request.body with
    | (.ok (), h) => some h
    | (.error e, h) => some (h.emit (.requestFailed request.id e))
  | .service (.response nodeAddress response) => some (h.sendResponse env nodeAddress response)
  | .service (.whoAreYou ref enr) => some (h.sendChallenge env ref enr)
  | .inbound inboundPacket => h.processInboundPacket env inboundPacket
  | .requestTimeout nonce =>
    match h.activeRequests.pollNext nonce with
    | (some (nodeAddress, call), ar) =>
      some (({ h with activeRequests := ar } : Handler Enr Sk Pk).handleRequestTimeout env
        nodeAddress call)
    | (none, ar) => some { h with activeRequests := ar }
  | .challengeExpired nodeAddress =>
    match ListMap.lookup h.activeChallenges nodeAddress with
    | some _ =>
      -- the expired challenge's queued requests go out; its expected response stays
      some (({ h with activeChallenges := ListMap.erase h.activeChallenges nodeAddress } :
        Handler Enr Sk Pk).sendPendingRequests env nodeAddress)
    | none => some h
  | .sessionExpired nodeAddress =>
    some { h with sessions := Function.update h.sessions nodeAddress none }

/-- A sequence of turns; `none` once the handler has panicked. -/
def run (h : Handler Enr Sk Pk) : List (Event Enr Pk) → Option (Handler Enr Sk Pk)
  | [] => some h
  | e :: es =>
    match h.step env e with
    | some h => h.run es
    | none => none

/-- The states the loop reaches from a state. -/
inductive Reachable (h₀ : Handler Enr Sk Pk) : Handler Enr Sk Pk → Prop
  | init : Reachable h₀ h₀
  | step {h h' : Handler Enr Sk Pk} (hr : Reachable h₀ h) (e : Event Enr Pk)
      (hs : h.step env e = some h') : Reachable h₀ h'

end Handler

end Discv5
