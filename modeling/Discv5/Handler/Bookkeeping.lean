import Discv5.Handler.Basic
import Discv5.Handler.Decryption

/-!
# What the handler keeps track of

Three tables of the handler follow what is outstanding with each node:

* the packet filter's count of the responses expected from a socket
  (`filter_expected_responses`), which lets the socket's packets through:
  one for each active request to it and one for each challenge out to it
  (`awaitedResponses`);
* the requests queued for a node (`pending_requests`), each waiting for a
  challenge to be answered or to expire, or for the handshake that the
  node's first request opened (`Handler::is_awaiting_session_to_be_established`),
  exactly the two conditions under which `send_request` queues;
* the calls that await a response (`active_requests`), which their final
  response completes.

Each is meant to hold in every state the loop reaches (`Reachable`), and
each is broken by one step, stated here for every state:

* the expiry of a challenge keeps the response the challenge expected
  (`step_challengeExpired_of_pendingRequests_nil`);
* the response to the ENR request of a session that awaits one settles the
  session and goes no further, so the request stays active
  (`enr_response_keeps_request_active`);
* a handshake that answers our challenge when a session is already there
  only updates the session's keys, and sends nothing of what was queued
  behind the challenge (`newSession_pendingRequests_of_isSome`).

Runs between two nodes reach each of these steps. They use the lawful toy
suite of the key agreement, records that are `Bool`s (`false` for the
handler's node A, `true` for node B) and a random source that draws zeros.
-/

namespace Discv5

open Rust Primitives

variable {Enr Sk Pk : Type}

/-- Decryption changes the keys of a session, not the ENR request it awaits. -/
theorem Session.awaitingEnr_decryptMessage (s : Crypto.Suite Sk Pk) (session : Session)
    (messageNonce : MessageNonce) (message aad : List UInt8) :
    (session.decryptMessage s messageNonce message aad : Except (Error Enr) _ × Session).2.awaitingEnr =
      session.awaitingEnr := by
  unfold Session.decryptMessage
  dsimp only
  -- every branch returns the session with other keys at most
  repeat' split
  all_goals rfl

namespace Handler

variable (env : Env Enr Sk Pk)

/-- A state a run from a reachable state ends in is reachable. -/
theorem Reachable.run {h₀ h : Handler Enr Sk Pk} (hr : Reachable env h₀ h) :
    ∀ {es : List (Event Enr Pk)} {h' : Handler Enr Sk Pk}, h.run env es = some h' →
      Reachable env h₀ h'
  | [], _, hrun => by
    cases hrun
    exact hr
  | e :: es, _, hrun => by
    simp only [Handler.run] at hrun
    cases hs : h.step env e with
    | none => simp [hs] at hrun
    | some h₁ =>
      rw [hs] at hrun
      exact (hr.step e hs).run hrun

theorem reachable_of_run {h₀ h : Handler Enr Sk Pk} {es : List (Event Enr Pk)}
    (hrun : h₀.run env es = some h) : Reachable env h₀ h :=
  Reachable.init.run env hrun

/-! ## Expected responses -/

/-- The responses the handler awaits from a socket: one for each active
request to it and one for each challenge out to it. -/
def awaitedResponses (h : Handler Enr Sk Pk) (socketAddr : SocketAddr) : Nat :=
  (h.activeRequests.activeRequestsMapping.map fun entry =>
      if entry.1.socketAddr = socketAddr then entry.2.length else 0).sum +
    h.activeChallenges.countP fun entry => entry.1.socketAddr = socketAddr

/-- A message from a node without a session asks the service for a WHOAREYOU. -/
theorem handleMessage_of_sessions_none {h : Handler Enr Sk Pk} {nodeAddress : NodeAddress}
    (hs : h.sessions nodeAddress = none) (messageNonce : MessageNonce)
    (message authenticatedData : List UInt8) :
    h.handleMessage env nodeAddress messageNonce message authenticatedData =
      some (h.emit (.whoAreYou ⟨nodeAddress, messageNonce⟩)) := by
  simp [handleMessage, hs]

/-- A challenge to a node without one expects one response more from the
node's socket, and is stored; the requests are as they were. -/
theorem sendChallenge_of_lookup_none {h : Handler Enr Sk Pk} {ref : WhoAreYouRef}
    (hc : ListMap.lookup h.activeChallenges ref.nodeAddress = none) (remoteEnr : Option Enr) :
    (h.sendChallenge env ref remoteEnr).filterExpectedResponses =
        Function.update h.filterExpectedResponses ref.nodeAddress.socketAddr
          (h.filterExpectedResponses ref.nodeAddress.socketAddr + 1) ∧
      (∃ challenge, (h.sendChallenge env ref remoteEnr).activeChallenges =
        ListMap.insert h.activeChallenges ref.nodeAddress challenge) ∧
      (h.sendChallenge env ref remoteEnr).activeRequests = h.activeRequests ∧
      (h.sendChallenge env ref remoteEnr).pendingRequests = h.pendingRequests := by
  unfold sendChallenge
  simp only [hc, Option.isSome_none, Bool.false_eq_true, if_false]
  exact ⟨rfl, ⟨_, rfl⟩, rfl, rfl⟩

/-- The expiry of a challenge with nothing queued behind it removes the
challenge and changes no count: the response it expected stays expected. -/
theorem step_challengeExpired_of_pendingRequests_nil {h : Handler Enr Sk Pk}
    {nodeAddress : NodeAddress} {challenge : Challenge Enr}
    (hc : ListMap.lookup h.activeChallenges nodeAddress = some challenge)
    (hp : h.pendingRequests nodeAddress = []) :
    ∃ h', h.step env (.challengeExpired nodeAddress) = some h' ∧
      h'.activeChallenges = ListMap.erase h.activeChallenges nodeAddress ∧
      h'.activeRequests = h.activeRequests ∧
      h'.filterExpectedResponses = h.filterExpectedResponses := by
  simp only [step, hc, sendPendingRequests, hp, List.foldl_nil]
  exact ⟨_, rfl, rfl, rfl, rfl⟩

/-- From the first state, a message from a node without a session, the
challenge the service then asks for, and its expiry leave the node's socket
expecting a response while no request and no challenge is out to it: the
socket passes the packet filter with nothing outstanding. -/
theorem challenge_expiry_keeps_expected_response (enr : Enr) (key : CombinedKey Sk)
    (requestRetries : UInt8) (listenSockets : List SocketAddr) (allowedCidr : Option Ipv4Cidr)
    (rng : Rng) (nodeAddress : NodeAddress) (messageNonce : MessageNonce)
    (message authenticatedData : List UInt8) (remoteEnr : Option Enr) :
    ∃ h, Reachable env (new env enr key requestRetries listenSockets allowedCidr rng) h ∧
      awaitedResponses h nodeAddress.socketAddr = 0 ∧
      h.filterExpectedResponses nodeAddress.socketAddr = 1 ∧
      h.permitted nodeAddress.socketAddr = true := by
  set h₀ := new env enr key requestRetries listenSockets allowedCidr rng
  set h₁ := h₀.emit (.whoAreYou ⟨nodeAddress, messageNonce⟩)
  have hstep₁ : h₀.step env (.inbound ⟨nodeAddress.socketAddr,
      ⟨messageNonce, .message nodeAddress.nodeId⟩, message, authenticatedData⟩) = some h₁ :=
    handleMessage_of_sessions_none env (h := h₀) (show h₀.sessions nodeAddress = none from rfl)
      messageNonce message authenticatedData
  obtain ⟨hfilter, ⟨challenge, hchallenges⟩, hrequests, hpending⟩ :=
    sendChallenge_of_lookup_none env (h := h₁)
      (show ListMap.lookup h₁.activeChallenges (⟨nodeAddress, messageNonce⟩ : WhoAreYouRef).nodeAddress
        = none from rfl) remoteEnr
  obtain ⟨h₃, hstep₃, hchallenges₃, hrequests₃, hfilter₃⟩ :=
    step_challengeExpired_of_pendingRequests_nil env
      (h := h₁.sendChallenge env ⟨nodeAddress, messageNonce⟩ remoteEnr)
      (by rw [hchallenges]; exact ListMap.lookup_insert_self _ _ _) (by rw [hpending]; rfl)
  have hreach : Reachable env h₀ h₃ :=
    ((Reachable.init.step _ hstep₁).step (.service (.whoAreYou _ remoteEnr)) rfl).step _ hstep₃
  -- the challenge was the only entry, and no request was ever made
  have hnone : h₃.activeChallenges = [] := by
    rw [hchallenges₃, hchallenges]
    simp [ListMap.insert, ListMap.erase, h₁, h₀, new, emit]
  have hone : h₃.filterExpectedResponses nodeAddress.socketAddr = 1 := by
    rw [hfilter₃, hfilter]
    simp [h₁, h₀, new, emit]
  have hrequests₀ : h₃.activeRequests = ActiveRequests.new := by
    rw [hrequests₃, hrequests]
    rfl
  refine ⟨h₃, hreach, ?_, hone, by simp [permitted, hone]⟩
  simp [awaitedResponses, hnone, hrequests₀, ActiveRequests.new]

/-! ## Completed requests -/

/-- The response to the ENR request of a session that awaits one, whose
last record verifies, settles the session and goes no further: the node's
calls, the ENR request among them, stay active, and their responses stay
expected, whatever number of parts the response announces. -/
theorem enr_response_keeps_request_active {h : Handler Enr Sk Pk} {nodeAddress : NodeAddress}
    {session : Session} {requestId : RequestId} {messageNonce : MessageNonce}
    {message authenticatedData m : List UInt8} {total : UInt64} {nodes : List Enr} {enr : Enr}
    (hsession : h.sessions nodeAddress = some session)
    (hawaiting : session.awaitingEnr = some requestId)
    (hdecrypt : (session.decryptMessage env.suite messageNonce message authenticatedData :
      Except (Error Enr) _ × Session).1 = .ok m)
    (hdecode : Message.decode env.rlp env.codec m = .ok (.response ⟨requestId, .nodes total nodes⟩))
    (hlast : nodes.getLast? = some enr)
    (hverify : h.verifyEnr env enr nodeAddress = true) :
    ∃ h', h.handleMessage env nodeAddress messageNonce message authenticatedData = some h' ∧
      h'.activeRequests = h.activeRequests ∧
      h'.filterExpectedResponses = h.filterExpectedResponses := by
  have hawaiting' := (@Session.awaitingEnr_decryptMessage Enr Sk Pk env.suite session messageNonce
    message authenticatedData).trans hawaiting
  rcases hd : (session.decryptMessage env.suite messageNonce message authenticatedData :
    Except (Error Enr) _ × Session) with ⟨result, session'⟩
  simp only [hd] at hdecrypt hawaiting'
  subst hdecrypt
  -- the record is verified against the allowed range, which the message does not change
  have hverify' : ∀ sessions, ({ h with sessions } : Handler Enr Sk Pk).verifyEnr env enr nodeAddress
      = true := fun _ => hverify
  simp only [handleMessage, hsession, hd, hdecode, hawaiting', hlast, hverify', if_true]
  exact ⟨_, rfl, rfl, rfl⟩

/-! ## Queued requests -/

/-- Encrypting draws random bytes and counts the message in the session,
nothing else. -/
theorem pendingRequests_encryptMessage (h : Handler Enr Sk Pk) (nodeAddress : NodeAddress)
    (session : Session) (message : List UInt8) :
    (h.encryptMessage env nodeAddress session message).2.pendingRequests = h.pendingRequests :=
  rfl

theorem pendingRequests_foldl_replayEncrypt (nodeAddress : NodeAddress) :
    ∀ (calls : List (RequestCall Enr Pk)) (acc : List (MessageNonce × Packet Enr) × Handler Enr Sk Pk),
      (calls.foldl (replayEncrypt env nodeAddress) acc).2.pendingRequests = acc.2.pendingRequests
  | [], _ => rfl
  | call :: calls, acc => by
    rw [List.foldl_cons, pendingRequests_foldl_replayEncrypt nodeAddress calls]
    unfold replayEncrypt
    split
    · rfl
    · next session _ =>
      have henc := pendingRequests_encryptMessage env acc.2 nodeAddress session (call.encode env.rlp)
      split <;> next _ _ _ heq =>
        rw [heq] at henc
        exact henc

theorem pendingRequests_foldl_send (nodeAddress : NodeAddress) :
    ∀ (packets : List (MessageNonce × Packet Enr)) (h : Handler Enr Sk Pk),
      (packets.foldl (fun h (oldNonce, packet) =>
        ({ h with activeRequests := h.activeRequests.updatePacket oldNonce packet } :
          Handler Enr Sk Pk).send nodeAddress packet) h).pendingRequests = h.pendingRequests
  | [], _ => rfl
  | _ :: packets, h => by
    rw [List.foldl_cons, pendingRequests_foldl_send nodeAddress packets]
    rfl

/-- A second session with a node replays the node's active calls under the
new keys and leaves the requests queued for it where they are. -/
theorem newSession_pendingRequests_of_isSome {h : Handler Enr Sk Pk} {nodeAddress : NodeAddress}
    (hs : (h.sessions nodeAddress).isSome) (session : Session) (messageNonce : Option MessageNonce) :
    (h.newSession env nodeAddress session messageNonce).pendingRequests = h.pendingRequests := by
  obtain ⟨currentSession, hcurrent⟩ := Option.isSome_iff_exists.mp hs
  simp only [newSession, hcurrent, replayActiveRequests, Function.update_self]
  rw [pendingRequests_foldl_send, pendingRequests_foldl_replayEncrypt]

end Handler

/-! ## Two nodes -/

/-- The records of two nodes: `false` is node A's, `true` node B's, a list of
56 empty strings. (The record loop of `Message::decode` takes a record's
header to be two bytes long, so it refuses a shorter record as the last of
a NODES response; a real record, with its signature, is longer.) -/
def pairRecordCodec : EnrCodec Bool where
  encode
    | false => [0xc0]
    | true => [0xf8, 56] ++ List.replicate 56 0x80
  decode
    | 0xc0 :: rest => .ok (false, rest)
    | 0xf8 :: 56 :: rest => .ok (true, rest.drop 56)
    | _ => .error .inputTooShort
  parseNodeId := NodeId.parse32

/-- What the records say: node A has the secret key 3, node B the secret
key 5, and the toy suite's public key of a secret key is its double. -/
def pairApi : EnrApi Bool UInt8 where
  seq _ := 1
  publicKey b := .secp256k1 (if b then 2 * 5 else 2 * 3)
  nodeId b := if b then toyIdB else toyIdA
  udp4Socket _ := none
  udp6Socket _ := none
  keyNodeId pk := if pk = .secp256k1 (2 * 5) then toyIdB else toyIdA

/-- The run's environment: no CIDR is allowed, so `Ipv4Cidr::contains` is never asked. -/
def pairEnv : Env Bool UInt8 UInt8 :=
  ⟨toySuite, pairApi, defaultProtocolId, pairRecordCodec, .reference, fun _ _ => false⟩

def socketB : SocketAddr := .v4 ⟨Ipv4Addr.new 127 0 0 1, 9000⟩

def addrB : NodeAddress := ⟨socketB, toyIdB⟩

/-- Node B as the service gives it to the handler: its key at its socket,
with its record or without. -/
def contactB (enr : Option Bool) : NodeContact Bool UInt8 := ⟨.secp256k1 (2 * 5), socketB, enr⟩

/-- Node A's handler in its first state, with one try per request (the
default `request_retries`) and a random source that draws zeros. -/
def handlerA : Handler Bool UInt8 UInt8 :=
  Handler.new pairEnv false (.secp256k1 3) 1 [] none ⟨fun _ => 0, 0⟩

/-- B's WHOAREYOU for A's first packet, whose nonce A drew as zeros. -/
def whoareyouFromB : InboundPacket Bool :=
  ⟨socketB, ⟨Session.zeroNonce, .whoAreYou ⟨List.replicate 16 0, rfl⟩ 1⟩, [], List.replicate 63 7⟩

/-- A sends B, whose record it does not know, a PING; B's WHOAREYOU makes
A answer with a handshake and ask for B's record with a FINDNODE at
distance 0, sent once the session is stored. -/
def enrRequestRun : List (Handler.Event Bool UInt8) :=
  [.service (.request (contactB none) ⟨⟨[1]⟩, .ping 1⟩), .inbound whoareyouFromB]

/-- B's NODES response to the ENR request, whose id A drew as eight zeros. -/
def enrResponse : Response Bool := ⟨⟨List.replicate 8 0⟩, .nodes 1 [true]⟩

/-- The response sealed under the session's keys, which are zeros: the toy
cipher appends the key as its tag. -/
def enrResponseMessage : List UInt8 :=
  Message.encode .reference pairRecordCodec (.response enrResponse) ++ (Session.toyKey 0).toList

/-- The nonce of the ENR request's packet, the session's first message. -/
def enrRequestNonce : MessageNonce := Session.messageNonce 1 ⟨List.replicate 8 0, rfl⟩

set_option maxRecDepth 10000 in
/-- In a state A reaches, the ENR request to B is active when B's response
to it arrives, and it is still active afterwards; when it times out, the
PING A sent B after the response fails with it. -/
theorem enr_response_keeps_request_active_pair :
    ∃ h h', Handler.Reachable pairEnv handlerA h ∧
      (∃ call ∈ (h.activeRequests.get addrB).getD [], call.requestId = .internal enrResponse.id) ∧
      h.handleMessage pairEnv addrB Session.zeroNonce enrResponseMessage [] = some h' ∧
      (∃ call ∈ (h'.activeRequests.get addrB).getD [], call.requestId = .internal enrResponse.id) ∧
      (((h.handleMessage pairEnv addrB Session.zeroNonce enrResponseMessage []).bind fun h' =>
          h'.run pairEnv [.service (.request (contactB none) ⟨⟨[2]⟩, .ping 1⟩),
            .requestTimeout enrRequestNonce]).map fun h'' => h''.serviceSend.filterMap fun out =>
            match out with
            | .requestFailed id .timeout => some id
            | _ => none) = some [⟨[1]⟩, ⟨[2]⟩] := by
  have hrun : (handlerA.run pairEnv enrRequestRun).isSome := by decide
  set h := (handlerA.run pairEnv enrRequestRun).get hrun
  have hsession : (h.sessions addrB).isSome := by decide +revert
  have hcall : ∃ call ∈ (h.activeRequests.get addrB).getD [], call.requestId = .internal enrResponse.id := by
    decide +revert
  have hlater : (((h.handleMessage pairEnv addrB Session.zeroNonce enrResponseMessage []).bind fun h' =>
      h'.run pairEnv [.service (.request (contactB none) ⟨⟨[2]⟩, .ping 1⟩),
        .requestTimeout enrRequestNonce]).map fun h'' => h''.serviceSend.filterMap fun out =>
          match out with
          | .requestFailed id .timeout => some id
          | _ => none) = some [⟨[1]⟩, ⟨[2]⟩] := by
    decide +revert
  obtain ⟨h', hmsg, hrequests, -⟩ := @Handler.enr_response_keeps_request_active Bool UInt8 UInt8 pairEnv
    h addrB _ enrResponse.id Session.zeroNonce enrResponseMessage []
    (Message.encode .reference pairRecordCodec (.response enrResponse)) 1 [true] true
    (Option.some_get hsession).symm (by decide +revert) rfl rfl rfl (by decide +revert)
  exact ⟨h, h', Handler.reachable_of_run pairEnv (Option.some_get hrun).symm, hcall, hmsg,
    hrequests ▸ hcall, hlater⟩

/-- B's packet, random to A, whose nonce is twelve ones. -/
def randomFromB : InboundPacket Bool :=
  ⟨socketB, ⟨⟨List.replicate 12 1, rfl⟩, .message toyIdB⟩, List.replicate 44 1, []⟩

/-- B's handshake answering A's challenge: the toy signature is B's secret
key 5, the ephemeral public key is 0, and the message is the empty one
sealed under the keys that derive from it, which are zeros. -/
def handshakeFromB : InboundPacket Bool :=
  ⟨socketB, ⟨⟨List.replicate 12 2, rfl⟩, .handshake toyIdB [5] [0] none⟩, (Session.toyKey 0).toList, []⟩

/-- Both nodes open a handshake at once. A sends B a PING with a random
packet; B's random packet makes the service ask A for a challenge, which A
sends, and a second PING is queued behind it. B's WHOAREYOU for A's packet
completes A's handshake first: the session is stored, and the requests
queued for B are queued again behind the challenge. Then B's handshake
answers the challenge. -/
def crossingRun : List (Handler.Event Bool UInt8) :=
  [.service (.request (contactB (some true)) ⟨⟨[1]⟩, .ping 1⟩),
   .inbound randomFromB,
   .service (.whoAreYou ⟨addrB, ⟨List.replicate 12 1, rfl⟩⟩ (some true)),
   .service (.request (contactB (some true)) ⟨⟨[2]⟩, .ping 1⟩),
   .inbound whoareyouFromB,
   .inbound handshakeFromB]

set_option maxRecDepth 10000 in
/-- After crossing handshakes A holds a request for B that is queued with no
challenge to B out and a session with B there: nothing will send it or fail it. -/
theorem crossing_handshakes_strand_request :
    ∃ h, Handler.Reachable pairEnv handlerA h ∧ h.pendingRequests addrB ≠ [] ∧
      (ListMap.lookup h.activeChallenges addrB).isNone ∧
      h.isAwaitingSessionToBeEstablished addrB = false := by
  have hrun : (handlerA.run pairEnv crossingRun).isSome := by decide
  refine ⟨_, Handler.reachable_of_run pairEnv (Option.some_get hrun).symm, ?_⟩
  decide +revert

end Discv5
