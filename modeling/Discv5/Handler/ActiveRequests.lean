import Discv5.Handler.Session
import Discv5.Lib.VecMap

/-!
# Requests awaiting a response

`src/handler/request_call.rs` and `src/handler/active_requests.rs`. A
request call is a request we sent with everything needed to resend it.
The handler keeps its calls by node address, each address with a vector of
calls, and maps the message nonce of each call's packet to its address, so
that a WHOAREYOU (which names no node) and a timeout (whose timer is keyed
by nonce) find the call.

The map of vectors is a list of address-vector pairs (`VecMap`), from
which a vector that empties is removed, as the source removes it. The nonce
map with its timers is a function; which nonce times out next is the
handler's choice of event.
-/

namespace Discv5

open Rust

/-- `HandlerReqId`: requests made by the handler itself, and by the service. -/
inductive HandlerReqId where
  | internal (id : RequestId)
  | external (id : RequestId)
  deriving DecidableEq

/-- `From<&HandlerReqId> for RequestId`. -/
def HandlerReqId.requestId : HandlerReqId → RequestId
  | .internal id => id
  | .external id => id

variable {Enr Pk : Type}

/-- `PendingRequest`: a request queued until a handshake completes. -/
structure PendingRequest (Enr Pk : Type) where
  contact : NodeContact Enr Pk
  requestId : HandlerReqId
  request : RequestBody

/-- `RequestCall`. -/
structure RequestCall (Enr Pk : Type) where
  contact : NodeContact Enr Pk
  /-- The raw discv5 packet sent. -/
  packet : Packet Enr
  requestId : HandlerReqId
  /-- The message body, to re-encrypt and re-send. -/
  request : RequestBody
  handshakeSent : Bool
  /-- The number of times this request has been sent. -/
  retries : UInt8
  /-- The responses still expected of a NODES response in several parts. -/
  remainingResponses : Option UInt64
  /-- Whether the request opened the session with a random packet. -/
  initiatingSession : Bool

namespace RequestCall

/-- `RequestCall::new`. -/
def new (contact : NodeContact Enr Pk) (packet : Packet Enr) (requestId : HandlerReqId)
    (request : RequestBody) (initiatingSession : Bool) : RequestCall Enr Pk :=
  ⟨contact, packet, requestId, request, false, 1, none, initiatingSession⟩

/-- `RequestCall::encode`: the request the call carries, encoded. -/
def encode (call : RequestCall Enr Pk) (rlp : RlpCodec) : List UInt8 :=
  (⟨call.requestId.requestId, call.request⟩ : Request).encode rlp

/-- The nonce of the call's packet, by which WHOAREYOUs and timeouts find it. -/
def messageNonce (call : RequestCall Enr Pk) : MessageNonce := call.packet.header.messageNonce

end RequestCall

/-- `ActiveRequests`. -/
structure ActiveRequests (Enr Pk : Type) where
  activeRequestsMapping : List (NodeAddress × List (RequestCall Enr Pk))
  activeRequestsNonceMapping : MessageNonce → Option NodeAddress

namespace ActiveRequests

open VecMap

/-- `ActiveRequests::new`. -/
def new : ActiveRequests Enr Pk := ⟨[], fun _ => none⟩

/-- `ActiveRequests::insert`: push the call to the address's vector. -/
def insert (ar : ActiveRequests Enr Pk) (nodeAddress : NodeAddress) (call : RequestCall Enr Pk) :
    ActiveRequests Enr Pk :=
  ⟨push ar.activeRequestsMapping nodeAddress call,
    Function.update ar.activeRequestsNonceMapping call.messageNonce (some nodeAddress)⟩

/-- `ActiveRequests::get`. -/
def get (ar : ActiveRequests Enr Pk) (nodeAddress : NodeAddress) :
    Option (List (RequestCall Enr Pk)) :=
  ListMap.lookup ar.activeRequestsMapping nodeAddress

/-- `ActiveRequests::update_packet`: the call sent under `oldNonce` was
re-encrypted into `newPacket`. The nonce map moves to the new nonce before
the call is looked for. -/
def updatePacket (ar : ActiveRequests Enr Pk) (oldNonce : MessageNonce) (newPacket : Packet Enr) :
    ActiveRequests Enr Pk :=
  match ar.activeRequestsNonceMapping oldNonce with
  | none => ar
  | some nodeAddress =>
    let nonceMapping := Function.update (Function.update ar.activeRequestsNonceMapping oldNonce none)
      newPacket.header.messageNonce (some nodeAddress)
    match ar.get nodeAddress with
    | some requests =>
      ⟨ListMap.insert ar.activeRequestsMapping nodeAddress
          (modifyFirst (fun req => req.messageNonce = oldNonce)
            (fun call => { call with packet := newPacket }) requests),
        nonceMapping⟩
    | none => ⟨ar.activeRequestsMapping, nonceMapping⟩

/-- `ActiveRequests::remove_by_nonce`: the nonce entry goes, and with it the
address's call of that nonce, if there is one; the address goes once it has
no call left. -/
def removeByNonce (ar : ActiveRequests Enr Pk) (nonce : MessageNonce) :
    Option (NodeAddress × RequestCall Enr Pk) × ActiveRequests Enr Pk :=
  match ar.activeRequestsNonceMapping nonce with
  | none => (none, ar)
  | some nodeAddress =>
    let nonceMapping := Function.update ar.activeRequestsNonceMapping nonce none
    match ar.get nodeAddress with
    | none => (none, ⟨ar.activeRequestsMapping, nonceMapping⟩)
    | some requests =>
      ((requests.find? (·.messageNonce = nonce)).map (nodeAddress, ·),
        ⟨restore ar.activeRequestsMapping nodeAddress (requests.eraseP (·.messageNonce = nonce)),
          nonceMapping⟩)

/-- `<ActiveRequests as Stream>::poll_next`, once the timer of `nonce`
fires and takes it out of the nonce map. Unlike `remove_by_nonce`, a vector
without the call is left as it is. -/
def pollNext (ar : ActiveRequests Enr Pk) (nonce : MessageNonce) :
    Option (NodeAddress × RequestCall Enr Pk) × ActiveRequests Enr Pk :=
  match ar.activeRequestsNonceMapping nonce with
  | none => (none, ar)
  | some nodeAddress =>
    let nonceMapping := Function.update ar.activeRequestsNonceMapping nonce none
    match ar.get nodeAddress with
    | none => (none, ⟨ar.activeRequestsMapping, nonceMapping⟩)
    | some requests =>
      match requests.find? (·.messageNonce = nonce) with
      | some call =>
        (some (nodeAddress, call),
          ⟨restore ar.activeRequestsMapping nodeAddress (requests.eraseP (·.messageNonce = nonce)),
            nonceMapping⟩)
      | none => (none, ⟨ar.activeRequestsMapping, nonceMapping⟩)

/-- `ActiveRequests::remove_requests`: every call of the address. -/
def removeRequests (ar : ActiveRequests Enr Pk) (nodeAddress : NodeAddress) :
    Option (List (RequestCall Enr Pk)) × ActiveRequests Enr Pk :=
  match ar.get nodeAddress with
  | none => (none, ar)
  | some requests =>
    let mapping := ListMap.erase ar.activeRequestsMapping nodeAddress
    if requests.isEmpty then (none, ⟨mapping, ar.activeRequestsNonceMapping⟩)
    else
      (some requests,
        ⟨mapping, requests.foldl (fun m req => Function.update m req.messageNonce none)
          ar.activeRequestsNonceMapping⟩)

/-- `ActiveRequests::remove_request`: the address's first call with the id. -/
def removeRequest (ar : ActiveRequests Enr Pk) (nodeAddress : NodeAddress) (id : RequestId) :
    Option (RequestCall Enr Pk) × ActiveRequests Enr Pk :=
  match ar.get nodeAddress with
  | none => (none, ar)
  | some requests =>
    match requests.find? (·.requestId.requestId = id) with
    | none => (none, ar)
    | some call =>
      (some call,
        ⟨restore ar.activeRequestsMapping nodeAddress (requests.eraseP (·.requestId.requestId = id)),
          Function.update ar.activeRequestsNonceMapping call.messageNonce none⟩)

/-! ## The two maps agree

The source checks in its tests that every nonce of the nonce map has an
address of the call map and every call's nonce is in the nonce map. What
its operations rely on is more: the nonce names the address that holds the
call, vectors are not empty, and one vector does not hold a nonce twice. -/

/-- The nonce map locates every call by its nonce (`VecMap.Indexes`). -/
def Consistent (ar : ActiveRequests Enr Pk) : Prop :=
  Indexes RequestCall.messageNonce ar.activeRequestsMapping ar.activeRequestsNonceMapping

section Consistent

variable {ar : ActiveRequests Enr Pk}

theorem get_eq_some_iff {nodeAddress : NodeAddress} {requests : List (RequestCall Enr Pk)}
    (h : ar.Consistent) :
    ar.get nodeAddress = some requests ↔
      requests ≠ [] ∧ members ar.activeRequestsMapping nodeAddress = requests := by
  constructor
  · intro hg
    refine ⟨fun he => h.nonempty nodeAddress (he ▸ hg), ?_⟩
    simp only [get] at hg
    simp [members, hg]
  · rintro ⟨hne, rfl⟩
    exact lookup_eq_some_members hne

/-- A nonce of the nonce map has its call in the vector of its address. -/
theorem Consistent.exists_call {nonce : MessageNonce} {nodeAddress : NodeAddress}
    (h : ar.Consistent) (hn : ar.activeRequestsNonceMapping nonce = some nodeAddress) :
    ∃ call ∈ members ar.activeRequestsMapping nodeAddress, call.messageNonce = nonce ∧
      ar.get nodeAddress = some (members ar.activeRequestsMapping nodeAddress) ∧
      (members ar.activeRequestsMapping nodeAddress).find? (·.messageNonce = nonce) = some call := by
  obtain ⟨call, hmem, hkey, hfind⟩ := h.exists_find? hn
  exact ⟨call, hmem, hkey, lookup_eq_some_members (List.ne_nil_of_mem hmem), hfind⟩

theorem Consistent.new : (new : ActiveRequests Enr Pk).Consistent := Indexes.nil

theorem Consistent.insert (h : ar.Consistent) (nodeAddress : NodeAddress) {call : RequestCall Enr Pk}
    (hfresh : ar.activeRequestsNonceMapping call.messageNonce = none) :
    (ar.insert nodeAddress call).Consistent :=
  Indexes.push h nodeAddress hfresh

theorem Consistent.updatePacket (h : ar.Consistent) (oldNonce : MessageNonce) {newPacket : Packet Enr}
    (hfresh : ar.activeRequestsNonceMapping newPacket.header.messageNonce = none) :
    (ar.updatePacket oldNonce newPacket).Consistent := by
  unfold ActiveRequests.updatePacket
  split
  · exact h
  · next nodeAddress hn =>
    obtain ⟨call, -, rfl, hget, hfind⟩ := h.exists_call hn
    rw [hget]
    exact Indexes.insert_modifyFirst (f := fun call => { call with packet := newPacket }) h hfind hfresh

theorem Consistent.removeByNonce (h : ar.Consistent) (nonce : MessageNonce) :
    (ar.removeByNonce nonce).2.Consistent := by
  unfold ActiveRequests.removeByNonce
  split
  · exact h
  · next nodeAddress hn =>
    obtain ⟨call, -, rfl, hget, hfind⟩ := h.exists_call hn
    rw [hget]
    exact Indexes.restore_eraseP h hfind

theorem Consistent.pollNext (h : ar.Consistent) (nonce : MessageNonce) :
    (ar.pollNext nonce).2.Consistent := by
  unfold ActiveRequests.pollNext
  split
  · exact h
  · next nodeAddress hn =>
    obtain ⟨call, -, rfl, hget, hfind⟩ := h.exists_call hn
    rw [hget]
    simp only [hfind]
    exact Indexes.restore_eraseP h hfind

theorem Consistent.removeRequests (h : ar.Consistent) (nodeAddress : NodeAddress) :
    (ar.removeRequests nodeAddress).2.Consistent := by
  unfold ActiveRequests.removeRequests
  split
  · exact h
  · next requests hget =>
    obtain ⟨hne, rfl⟩ := (get_eq_some_iff h).1 hget
    simp only [List.isEmpty_iff, hne, if_false]
    exact Indexes.erase h nodeAddress

theorem Consistent.removeRequest (h : ar.Consistent) (nodeAddress : NodeAddress) (id : RequestId) :
    (ar.removeRequest nodeAddress id).2.Consistent := by
  unfold ActiveRequests.removeRequest
  split
  · exact h
  · next requests hget =>
    obtain ⟨-, rfl⟩ := (get_eq_some_iff h).1 hget
    split
    · exact h
    · next call hfind => exact Indexes.restore_eraseP h hfind

/-- `remove_by_nonce` returns the call of the nonce, and only it. -/
theorem Consistent.removeByNonce_fst (h : ar.Consistent) (nonce : MessageNonce)
    (nodeAddress : NodeAddress) (call : RequestCall Enr Pk) :
    (ar.removeByNonce nonce).1 = some (nodeAddress, call) ↔
      ∃ requests, ar.get nodeAddress = some requests ∧ call ∈ requests ∧ call.messageNonce = nonce := by
  constructor
  · unfold ActiveRequests.removeByNonce
    split
    · simp
    · next a hn =>
      obtain ⟨c, hmem, rfl, hget, hfind⟩ := h.exists_call hn
      rw [hget]
      simp only [hfind, Option.map_some, Option.some.injEq, Prod.mk.injEq]
      rintro ⟨rfl, rfl⟩
      exact ⟨_, hget, hmem, rfl⟩
  · rintro ⟨requests, hget, hmem, rfl⟩
    obtain ⟨-, rfl⟩ := (get_eq_some_iff h).1 hget
    have hn := (h.idx_iff call.messageNonce nodeAddress).2 (List.mem_map_of_mem hmem)
    simp [ActiveRequests.removeByNonce, hn, hget, h.find?_key hmem]

/-- An expiring nonce yields its call, and only it. -/
theorem Consistent.pollNext_fst (h : ar.Consistent) (nonce : MessageNonce)
    (nodeAddress : NodeAddress) (call : RequestCall Enr Pk) :
    (ar.pollNext nonce).1 = some (nodeAddress, call) ↔
      ∃ requests, ar.get nodeAddress = some requests ∧ call ∈ requests ∧ call.messageNonce = nonce := by
  constructor
  · unfold ActiveRequests.pollNext
    split
    · simp
    · next a hn =>
      obtain ⟨c, hmem, rfl, hget, hfind⟩ := h.exists_call hn
      rw [hget]
      simp only [hfind, Option.some.injEq, Prod.mk.injEq]
      rintro ⟨rfl, rfl⟩
      exact ⟨_, hget, hmem, rfl⟩
  · rintro ⟨requests, hget, hmem, rfl⟩
    obtain ⟨-, rfl⟩ := (get_eq_some_iff h).1 hget
    have hn := (h.idx_iff call.messageNonce nodeAddress).2 (List.mem_map_of_mem hmem)
    simp [ActiveRequests.pollNext, hn, hget, h.find?_key hmem]

/-- The nonce map, read through `get`: a nonce names an address exactly when
the address's calls include one of that nonce. -/
theorem Consistent.nonce_iff (h : ar.Consistent) (nonce : MessageNonce) (nodeAddress : NodeAddress) :
    ar.activeRequestsNonceMapping nonce = some nodeAddress ↔
      ∃ requests, ar.get nodeAddress = some requests ∧ ∃ call ∈ requests, call.messageNonce = nonce := by
  rw [h.idx_iff, List.mem_map]
  constructor
  · rintro ⟨call, hmem, hkey⟩
    exact ⟨_, lookup_eq_some_members (List.ne_nil_of_mem hmem), call, hmem, hkey⟩
  · rintro ⟨requests, hget, call, hmem, hkey⟩
    obtain ⟨-, rfl⟩ := (get_eq_some_iff h).1 hget
    exact ⟨call, hmem, hkey⟩

theorem Consistent.get_spec (h : ar.Consistent) {nodeAddress : NodeAddress}
    {requests : List (RequestCall Enr Pk)} (hget : ar.get nodeAddress = some requests) :
    requests ≠ [] ∧ (requests.map RequestCall.messageNonce).Nodup := by
  obtain ⟨hne, rfl⟩ := (get_eq_some_iff h).1 hget
  exact ⟨hne, h.nodup nodeAddress⟩

end Consistent

/-! ## Runs of operations -/

/-- The operations of `ActiveRequests` that the handler performs. -/
inductive Op (Enr Pk : Type) where
  | insert (nodeAddress : NodeAddress) (call : RequestCall Enr Pk)
  | updatePacket (oldNonce : MessageNonce) (newPacket : Packet Enr)
  | removeByNonce (nonce : MessageNonce)
  | removeRequests (nodeAddress : NodeAddress)
  | removeRequest (nodeAddress : NodeAddress) (id : RequestId)
  | pollNext (nonce : MessageNonce)

namespace Op

def apply (ar : ActiveRequests Enr Pk) : Op Enr Pk → ActiveRequests Enr Pk
  | .insert nodeAddress call => ar.insert nodeAddress call
  | .updatePacket oldNonce newPacket => ar.updatePacket oldNonce newPacket
  | .removeByNonce nonce => (ar.removeByNonce nonce).2
  | .removeRequests nodeAddress => (ar.removeRequests nodeAddress).2
  | .removeRequest nodeAddress id => (ar.removeRequest nodeAddress id).2
  | .pollNext nonce => (ar.pollNext nonce).2

/-- What the callers promise: a nonce they add is not in use. -/
def Fresh (ar : ActiveRequests Enr Pk) : Op Enr Pk → Prop
  | .insert _ call => ar.activeRequestsNonceMapping call.messageNonce = none
  | .updatePacket _ newPacket => ar.activeRequestsNonceMapping newPacket.header.messageNonce = none
  | _ => True

end Op

/-- The state after a sequence of operations. -/
def run (ar : ActiveRequests Enr Pk) (ops : List (Op Enr Pk)) : ActiveRequests Enr Pk :=
  ops.foldl Op.apply ar

/-- Every operation of the sequence adds only nonces not in use at its turn. -/
def Admissible : ActiveRequests Enr Pk → List (Op Enr Pk) → Prop
  | _, [] => True
  | ar, op :: ops => op.Fresh ar ∧ Admissible (op.apply ar) ops

theorem Consistent.apply {ar : ActiveRequests Enr Pk} (h : ar.Consistent) {op : Op Enr Pk}
    (hop : op.Fresh ar) : (op.apply ar).Consistent := by
  cases op with
  | insert nodeAddress call => exact h.insert nodeAddress hop
  | updatePacket oldNonce newPacket => exact h.updatePacket oldNonce hop
  | removeByNonce nonce => exact h.removeByNonce nonce
  | removeRequests nodeAddress => exact h.removeRequests nodeAddress
  | removeRequest nodeAddress id => exact h.removeRequest nodeAddress id
  | pollNext nonce => exact h.pollNext nonce

/-- The two maps stay consistent along every admissible run. -/
theorem Consistent.run {ar : ActiveRequests Enr Pk} (h : ar.Consistent) {ops : List (Op Enr Pk)}
    (hops : Admissible ar ops) : (ar.run ops).Consistent := by
  induction ops generalizing ar with
  | nil => exact h
  | cons op ops ih => exact ih (h.apply hops.1) hops.2

/-- From the empty state, along any run whose inserted and re-keyed nonces
are not in use, the nonce map names exactly the address whose calls hold
the nonce, every vector is non-empty with distinct nonces, and a removal by
nonce or an expiry yields exactly the call of its nonce. -/
theorem run_two_index_consistent (ops : List (Op Enr Pk)) (hops : Admissible new ops) :
    let ar := (new : ActiveRequests Enr Pk).run ops
    (∀ nonce nodeAddress, ar.activeRequestsNonceMapping nonce = some nodeAddress ↔
      ∃ requests, ar.get nodeAddress = some requests ∧ ∃ call ∈ requests, call.messageNonce = nonce) ∧
    (∀ nodeAddress requests, ar.get nodeAddress = some requests →
      requests ≠ [] ∧ (requests.map RequestCall.messageNonce).Nodup) ∧
    (∀ nonce nodeAddress call, (ar.removeByNonce nonce).1 = some (nodeAddress, call) ↔
      ∃ requests, ar.get nodeAddress = some requests ∧ call ∈ requests ∧ call.messageNonce = nonce) ∧
    (∀ nonce nodeAddress call, (ar.pollNext nonce).1 = some (nodeAddress, call) ↔
      ∃ requests, ar.get nodeAddress = some requests ∧ call ∈ requests ∧ call.messageNonce = nonce) := by
  have h := Consistent.new.run hops
  exact ⟨h.nonce_iff, fun _ _ => h.get_spec, h.removeByNonce_fst, h.pollNext_fst⟩

/-- A call to 127.0.0.1:9000, sent as a random packet of nonce zero. -/
def exampleCall : RequestCall Unit Unit :=
  .new ⟨.ed25519, .v4 ⟨Ipv4Addr.new 127 0 0 1, 9000⟩, none⟩
    (.newRandom ⟨Arr.replicate 32 0⟩ (Arr.replicate 44 0) (Arr.replicate 12 0) 0)
    (.external ⟨[1]⟩) (.ping 1) true

/-- A second call to the same address, request id 2, sent as a random
packet whose nonce is twelve bytes of 2. -/
def secondCall : RequestCall Unit Unit :=
  .new ⟨.ed25519, .v4 ⟨Ipv4Addr.new 127 0 0 1, 9000⟩, none⟩
    (.newRandom ⟨Arr.replicate 32 0⟩ (Arr.replicate 44 0) (Arr.replicate 12 2) 0)
    (.external ⟨[2]⟩) (.ping 1) true

/-- A call is resent under a new nonce, a second call to the same address
is inserted, and the first is removed: the second is still held, under
its nonce. -/
theorem run_two_index_consistent_resend :
    let a : NodeAddress := ⟨.v4 ⟨Ipv4Addr.new 127 0 0 1, 9000⟩, ⟨⟨List.replicate 32 0, rfl⟩⟩⟩
    let ops : List (Op Unit Unit) :=
      [.insert a exampleCall, .updatePacket exampleCall.messageNonce
        (.newRandom ⟨⟨List.replicate 32 0, rfl⟩⟩ ⟨List.replicate 44 0, rfl⟩ ⟨List.replicate 12 1, rfl⟩ 0),
        .insert a secondCall, .removeRequest a ⟨[1]⟩]
    Admissible new ops ∧
      ((new : ActiveRequests Unit Unit).run ops).activeRequestsNonceMapping secondCall.messageNonce = some a ∧
      (∀ nonce nodeAddress, ((new : ActiveRequests Unit Unit).run ops).activeRequestsNonceMapping nonce =
          some nodeAddress ↔
        ∃ requests, ((new : ActiveRequests Unit Unit).run ops).get nodeAddress = some requests ∧
          ∃ call ∈ requests, call.messageNonce = nonce) := by
  intro a ops
  have hops : Admissible new ops :=
    ⟨rfl, by simp only [Op.Fresh]; decide, by simp only [Op.Fresh]; decide, trivial, trivial⟩
  exact ⟨hops, by decide, (run_two_index_consistent ops hops).1⟩

/-- The calls to node addresses at `socketAddr`. -/
def countAt (ar : ActiveRequests Enr Pk) (socketAddr : SocketAddr) : Nat :=
  ((ar.activeRequestsMapping.filter (·.1.socketAddr = socketAddr)).map (·.2.length)).sum

end ActiveRequests

end Discv5
