import Discv5.Service.Findnode
import Discv5.Handler.Basic
import Discv5.Handler.KeyAgreement

/-!
# NODES responses to the service's requests

`Service::handle_rpc_response` (`src/service.rs`) for a response
`Nodes { total, nodes }`: the request the response answers is taken out of
`active_requests`, and a response from another address or to a request of
another kind ends there. A FINDNODE made for the user
(`Discv5::find_node_designated_peer`) sends the nodes of the part down the
user's callback and returns. Every other FINDNODE keeps the nodes at the
distances it asked for, bans a peer that sent others, and, when the peer
announced several parts, gathers them in `active_nodes_responses` and puts
the request back, until a part whose count reaches the announced total
hands all the gathered nodes to `discovered`.

What the service hands on (the nodes down a callback, a call of
`discovered`, a ban) is the output of the step. The two maps keyed by
request id are functions.

A request without callback goes through three step lemmas: a part of
another request changes nothing of it (`Progress.other`), a part before its
last is gathered (`Progress.part`), and its last part hands on what was
gathered (`Progress.last`). By induction over any interleaving of parts,
`Progress.run` counts the parts of the request seen so far. A request with
a callback instead ends at its first part.
-/

namespace Discv5.Service

open Rust Kbucket

variable {Enr Pk : Type}

/-- `QueryId`. -/
structure QueryId where
  id : Nat
  deriving DecidableEq

/-- `CallbackResponse`, by the kind of its channel. -/
inductive CallbackResponse where
  | nodes
  | talk
  | pong
  deriving DecidableEq

/-- `ActiveRequest`. -/
structure ActiveRequest (Enr Pk : Type) where
  contact : NodeContact Enr Pk
  requestBody : RequestBody
  queryId : Option QueryId
  callback : Option CallbackResponse

/-- `NodesResponse`: the parts counted so far and the nodes they kept. -/
structure NodesResponse (Enr : Type) where
  count : Nat
  receivedNodes : List Enr

/-- `Default for NodesResponse`: a first part is counted before it is stored. -/
def NodesResponse.default : NodesResponse Enr := ⟨1, []⟩

/-- `MAX_NODES_RESPONSES`. -/
def maxNodesResponses : Nat := (maxNodesPerBucket / 4 + 1) * distancesToRequestPerPeer

/-- What `handle_rpc_response` hands on. -/
inductive Output (Enr : Type) where
  /-- `callback.send(Ok(nodes))` on the callback of request `id`. -/
  | callback (id : RequestId) (nodes : List Enr)
  /-- `self.discovered(source, enrs, query_id)`. -/
  | discovered (source : NodeId) (enrs : List Enr) (queryId : Option QueryId)
  /-- `PERMIT_BAN_LIST.write().ban(node_address, ..)`. -/
  | ban (nodeAddress : NodeAddress)

/-- The service's requests awaiting a response, and the parts gathered of
NODES responses in several parts. -/
structure RpcState (Enr Pk : Type) where
  activeRequests : RequestId → Option (ActiveRequest Enr Pk)
  activeNodesResponses : RequestId → Option (NodesResponse Enr)

namespace RpcState

/-- `self.active_requests.remove(&id)`. -/
def removeRequest (s : RpcState Enr Pk) (id : RequestId) : RpcState Enr Pk :=
  { s with activeRequests := Function.update s.activeRequests id none }

/-- `self.active_requests.insert(id, active_request)`. -/
def insertRequest (s : RpcState Enr Pk) (id : RequestId) (r : ActiveRequest Enr Pk) :
    RpcState Enr Pk :=
  { s with activeRequests := Function.update s.activeRequests id (some r) }

/-- `self.active_nodes_responses.remove(&id)`. -/
def removeNodesResponse (s : RpcState Enr Pk) (id : RequestId) : RpcState Enr Pk :=
  { s with activeNodesResponses := Function.update s.activeNodesResponses id none }

/-- `self.active_nodes_responses.insert(id, current_response)`. -/
def insertNodesResponse (s : RpcState Enr Pk) (id : RequestId) (r : NodesResponse Enr) :
    RpcState Enr Pk :=
  { s with activeNodesResponses := Function.update s.activeNodesResponses id (some r) }

variable (s : RpcState Enr Pk) (id : RequestId)

@[simp] theorem removeRequest_activeRequests :
    (s.removeRequest id).activeRequests = Function.update s.activeRequests id none := rfl

@[simp] theorem removeRequest_activeNodesResponses :
    (s.removeRequest id).activeNodesResponses = s.activeNodesResponses := rfl

@[simp] theorem insertRequest_activeRequests (r : ActiveRequest Enr Pk) :
    (s.insertRequest id r).activeRequests = Function.update s.activeRequests id (some r) := rfl

@[simp] theorem insertRequest_activeNodesResponses (r : ActiveRequest Enr Pk) :
    (s.insertRequest id r).activeNodesResponses = s.activeNodesResponses := rfl

@[simp] theorem removeNodesResponse_activeRequests :
    (s.removeNodesResponse id).activeRequests = s.activeRequests := rfl

@[simp] theorem removeNodesResponse_activeNodesResponses :
    (s.removeNodesResponse id).activeNodesResponses =
      Function.update s.activeNodesResponses id none := rfl

@[simp] theorem insertNodesResponse_activeRequests (r : NodesResponse Enr) :
    (s.insertNodesResponse id r).activeRequests = s.activeRequests := rfl

@[simp] theorem insertNodesResponse_activeNodesResponses (r : NodesResponse Enr) :
    (s.insertNodesResponse id r).activeNodesResponses =
      Function.update s.activeNodesResponses id (some r) := rfl

end RpcState

section Response

variable (api : EnrApi Enr Pk) (maxNodesResponse : Nat)

/-- `Service::handle_rpc_response` for a response `Nodes { total, nodes }`
with id `id` from `nodeAddress`. -/
def handleNodesResponse (s : RpcState Enr Pk) (nodeAddress : NodeAddress) (id : RequestId)
    (total : UInt64) (nodes : List Enr) : RpcState Enr Pk × List (Output Enr) :=
  match s.activeRequests id with
  | none => (s, [])
  | some activeRequest =>
    let s := s.removeRequest id
    if activeRequest.contact.nodeAddress api ≠ nodeAddress then (s, [])
    else if !(⟨id, .nodes total nodes⟩ : Response Enr).matchRequest activeRequest.requestBody then
      (s, [])
    else
      match activeRequest.requestBody, activeRequest.callback with
      | .findNode _, some .nodes => (s, [.callback id nodes])
      | .findNode distancesRequested, _ =>
        -- `callback.take()`: the request put back has no callback
        let activeRequest := { activeRequest with callback := none }
        let (nodes, banned) :=
          checkNodesDistances api.nodeId nodeAddress.nodeId distancesRequested nodes
        let bans := if banned then [Output.ban nodeAddress] else []
        -- the tail of the branch: the gathered parts go, and `discovered` gets the nodes
        let deliver (nodes : List Enr) : RpcState Enr Pk × List (Output Enr) :=
          (s.removeNodesResponse id,
            bans ++ [.discovered nodeAddress.nodeId nodes activeRequest.queryId])
        if total > 1 then
          let currentResponse := (s.activeNodesResponses id).getD .default
          if currentResponse.receivedNodes.length < maxNodesResponse ∧
              UInt64.ofNat currentResponse.count < total ∧
              currentResponse.count < maxNodesResponses then
            ((((s.removeNodesResponse id).insertNodesResponse id
                ⟨currentResponse.count + 1, currentResponse.receivedNodes ++ nodes⟩).insertRequest
                id activeRequest), bans)
          else deliver (currentResponse.receivedNodes ++ nodes)
        else deliver nodes
      -- `unreachable!()`: `match_request` lets only a FINDNODE through
      | _, _ => (s, [])

/-- A part of a NODES response, as the handler passes it to the service. -/
structure NodesPart (Enr : Type) where
  nodeAddress : NodeAddress
  id : RequestId
  total : UInt64
  nodes : List Enr

/-- The service handling parts one after another, of any requests in any order. -/
def runParts (s : RpcState Enr Pk) (parts : List (NodesPart Enr)) : RpcState Enr Pk :=
  parts.foldl (fun s p => (handleNodesResponse api maxNodesResponse s p.nodeAddress p.id p.total
    p.nodes).1) s

@[simp] theorem runParts_nil (s : RpcState Enr Pk) : runParts api maxNodesResponse s [] = s := rfl

theorem runParts_cons (s : RpcState Enr Pk) (p : NodesPart Enr) (parts : List (NodesPart Enr)) :
    runParts api maxNodesResponse s (p :: parts) =
      runParts api maxNodesResponse
        (handleNodesResponse api maxNodesResponse s p.nodeAddress p.id p.total p.nodes).1 parts := rfl

end Response

/-- What a request `id` to `peer` for `distancesRequested` is to receive of
`parts`: the nodes the distance check keeps of each of its own parts, in
arrival order. -/
def keptNodes (api : EnrApi Enr Pk) (peer : NodeId) (distancesRequested : List UInt64)
    (id : RequestId) (parts : List (NodesPart Enr)) : List Enr :=
  (parts.filter (·.id = id)).flatMap fun p =>
    (checkNodesDistances api.nodeId peer distancesRequested p.nodes).1

@[simp] theorem keptNodes_nil (api : EnrApi Enr Pk) (peer : NodeId) (D : List UInt64)
    (id : RequestId) : keptNodes api peer D id [] = [] := rfl

theorem keptNodes_cons (api : EnrApi Enr Pk) (peer : NodeId) (D : List UInt64) (id : RequestId)
    (p : NodesPart Enr) (parts : List (NodesPart Enr)) :
    keptNodes api peer D id (p :: parts) =
      (if p.id = id then (checkNodesDistances api.nodeId peer D p.nodes).1 else []) ++
        keptNodes api peer D id parts := by
  by_cases h : p.id = id <;> simp [keptNodes, h]

theorem keptNodes_append (api : EnrApi Enr Pk) (peer : NodeId) (D : List UInt64)
    (id : RequestId) (parts parts' : List (NodesPart Enr)) :
    keptNodes api peer D id (parts ++ parts') =
      keptNodes api peer D id parts ++ keptNodes api peer D id parts' := by
  simp [keptNodes, List.filter_append]

/-- Without a part of the request there is nothing it is to receive. -/
theorem keptNodes_eq_nil (api : EnrApi Enr Pk) (peer : NodeId) (D : List UInt64) {id : RequestId}
    {parts : List (NodesPart Enr)} (h : parts.countP (·.id = id) = 0) :
    keptNodes api peer D id parts = [] := by
  simp [keptNodes, List.filter_eq_nil_iff.mpr (List.countP_eq_zero.mp h)]

/-! ## One step -/

section Steps

variable {api : EnrApi Enr Pk} {maxNodesResponse : Nat} {s : RpcState Enr Pk}
  {nodeAddress : NodeAddress} {id : RequestId} {total : UInt64} {nodes : List Enr}

/-- A response to no active request changes nothing. -/
theorem handleNodesResponse_unknown (h : s.activeRequests id = none) :
    handleNodesResponse api maxNodesResponse s nodeAddress id total nodes = (s, []) := by
  simp [handleNodesResponse, h]

/-- A response touches the entries of its own id only. -/
theorem handleNodesResponse_frame {id' : RequestId} (hne : id' ≠ id) :
    (handleNodesResponse api maxNodesResponse s nodeAddress id total nodes).1.activeRequests id' =
        s.activeRequests id' ∧
      (handleNodesResponse api maxNodesResponse s nodeAddress id total nodes).1.activeNodesResponses
        id' = s.activeNodesResponses id' := by
  unfold handleNodesResponse
  split
  · exact ⟨rfl, rfl⟩
  · dsimp only
    -- every branch removes or inserts at `id`
    repeat' split
    all_goals simp [Function.update_of_ne hne]

/-- A part from the peer of a FINDNODE without callback, as the source's
branch computes it once the request is found. -/
theorem handleNodesResponse_own {req : ActiveRequest Enr Pk} {D : List UInt64}
    (hreq : s.activeRequests id = some req) (haddr : req.contact.nodeAddress api = nodeAddress)
    (hbody : req.requestBody = .findNode D) (hcb : req.callback = none) :
    handleNodesResponse api maxNodesResponse s nodeAddress id total nodes =
      let checked := checkNodesDistances api.nodeId nodeAddress.nodeId D nodes
      let bans := if checked.2 then [Output.ban nodeAddress] else []
      let currentResponse := (s.activeNodesResponses id).getD .default
      let deliver (nodes : List Enr) : RpcState Enr Pk × List (Output Enr) :=
        ((s.removeRequest id).removeNodesResponse id,
          bans ++ [.discovered nodeAddress.nodeId nodes req.queryId])
      if total > 1 then
        if currentResponse.receivedNodes.length < maxNodesResponse ∧
            UInt64.ofNat currentResponse.count < total ∧ currentResponse.count < maxNodesResponses then
          ((((s.removeRequest id).removeNodesResponse id).insertNodesResponse id
            ⟨currentResponse.count + 1, currentResponse.receivedNodes ++ checked.1⟩).insertRequest id
              req, bans)
        else deliver (currentResponse.receivedNodes ++ checked.1)
      else deliver checked.1 := by
  obtain ⟨contact, requestBody, queryId, callback⟩ := req
  simp only at haddr hbody hcb
  subst hbody hcb
  simp only [handleNodesResponse, hreq, haddr, ne_eq, not_true_eq_false, if_false,
    Response.matchRequest, Bool.not_true, Bool.false_eq_true,
    RpcState.removeRequest_activeNodesResponses]
  -- the two sides differ in the decidability instances only
  rfl

end Steps

/-! ## The parts of one request -/

/-- Request `id` after `k` of its parts, whose kept nodes are `acc`: still
active, with the count and the nodes of its parts gathered. -/
structure Progress (s : RpcState Enr Pk) (id : RequestId) (req : ActiveRequest Enr Pk) (k : Nat)
    (acc : List Enr) : Prop where
  active : s.activeRequests id = some req
  gathered : (s.activeNodesResponses id).getD .default = ⟨k + 1, acc⟩

namespace Progress

variable {api : EnrApi Enr Pk} {maxNodesResponse : Nat} {s : RpcState Enr Pk} {id : RequestId}
  {req : ActiveRequest Enr Pk} {k : Nat} {acc : List Enr}

/-- A request just sent has no part yet. -/
theorem start (hreq : s.activeRequests id = some req) (hfresh : s.activeNodesResponses id = none) :
    Progress s id req 0 [] :=
  ⟨hreq, by simp [hfresh, NodesResponse.default]⟩

/-- A part of another request leaves this one as it is. -/
theorem other (h : Progress s id req k acc) {p : NodesPart Enr} (hne : p.id ≠ id) :
    Progress (handleNodesResponse api maxNodesResponse s p.nodeAddress p.id p.total p.nodes).1 id
      req k acc := by
  constructor
  · rw [(handleNodesResponse_frame (Ne.symm hne)).1]
    exact h.active
  · rw [(handleNodesResponse_frame (Ne.symm hne)).2]
    exact h.gathered

/-- The count of a part is below the total: `(count as u64) < total`
compares the numbers themselves. -/
theorem ofNat_lt_iff {n : Nat} {T : UInt64} (hn : n ≤ T.toNat) : UInt64.ofNat n < T ↔ n < T.toNat := by
  rw [UInt64.lt_iff_toNat_lt, UInt64.toNat_ofNat_of_lt' (lt_of_le_of_lt hn T.toNat_lt)]

variable {D : List UInt64} {T : UInt64} {nodes : List Enr}

/-- A part before the last is gathered and the request is put back. -/
theorem part (hbody : req.requestBody = .findNode D) (hcb : req.callback = none)
    (h : Progress s id req k acc) (hk : k + 1 < T.toNat) (hT : T.toNat ≤ maxNodesResponses)
    (hacc : acc.length < maxNodesResponse) :
    Progress (handleNodesResponse api maxNodesResponse s (req.contact.nodeAddress api) id T nodes).1
        id req (k + 1)
        (acc ++ (checkNodesDistances api.nodeId (req.contact.nodeAddress api).nodeId D nodes).1) ∧
      (handleNodesResponse api maxNodesResponse s (req.contact.nodeAddress api) id T nodes).2 =
        if (checkNodesDistances api.nodeId (req.contact.nodeAddress api).nodeId D nodes).2 then
          [.ban (req.contact.nodeAddress api)] else [] := by
  have h1 : T > 1 := by
    rw [gt_iff_lt, UInt64.lt_iff_toNat_lt]
    simp only [UInt64.reduceToNat]
    omega
  have hcount : UInt64.ofNat (k + 1) < T := (ofNat_lt_iff (by omega)).mpr hk
  have hmax : k + 1 < maxNodesResponses := by omega
  rw [handleNodesResponse_own h.active rfl hbody hcb]
  simp only [h.gathered, h1, hacc, hcount, hmax, and_self, if_true, and_true]
  exact ⟨by simp, by simp⟩

/-- The last part hands on everything gathered and ends the request. -/
theorem last (hbody : req.requestBody = .findNode D) (hcb : req.callback = none)
    (h : Progress s id req k acc) (hk : k + 1 = T.toNat) (hk0 : k = 0 → acc = []) :
    (handleNodesResponse api maxNodesResponse s (req.contact.nodeAddress api) id T nodes).1.activeRequests
        id = none ∧
      (handleNodesResponse api maxNodesResponse s (req.contact.nodeAddress api) id T
        nodes).1.activeNodesResponses id = none ∧
      (handleNodesResponse api maxNodesResponse s (req.contact.nodeAddress api) id T nodes).2 =
        (if (checkNodesDistances api.nodeId (req.contact.nodeAddress api).nodeId D nodes).2 then
          [.ban (req.contact.nodeAddress api)] else []) ++
        [.discovered (req.contact.nodeAddress api).nodeId
          (acc ++ (checkNodesDistances api.nodeId (req.contact.nodeAddress api).nodeId D nodes).1)
          req.queryId] := by
  rw [handleNodesResponse_own h.active rfl hbody hcb]
  by_cases h1 : T > 1
  · -- the part's count is the total: no more parts are waited for
    have hcount : ¬UInt64.ofNat (k + 1) < T := by
      rw [ofNat_lt_iff (by omega)]
      omega
    simp only [h.gathered, h1, hcount, and_false, false_and, if_true, if_false]
    simp
  · -- a response in one part: nothing was gathered
    have hk' : k = 0 := by
      rw [gt_iff_lt, UInt64.lt_iff_toNat_lt] at h1
      simp only [UInt64.reduceToNat] at h1
      omega
    simp [h1, hk0 hk']

/-- Over any interleaving of parts, the request has the count and the
nodes of its own parts, as long as more are to come. -/
theorem run (hbody : req.requestBody = .findNode D) (hcb : req.callback = none)
    (hT : T.toNat ≤ maxNodesResponses) :
    ∀ (parts : List (NodesPart Enr)) {s : RpcState Enr Pk} {k : Nat} {acc : List Enr},
      Progress s id req k acc →
      (∀ p ∈ parts, p.id = id → p.nodeAddress = req.contact.nodeAddress api ∧ p.total = T) →
      k + parts.countP (·.id = id) < T.toNat →
      (acc ++ keptNodes api (req.contact.nodeAddress api).nodeId D id parts).length <
        maxNodesResponse →
      Progress (runParts api maxNodesResponse s parts) id req (k + parts.countP (·.id = id))
        (acc ++ keptNodes api (req.contact.nodeAddress api).nodeId D id parts)
  | [], s, k, acc, h, _, _, _ => by simpa using h
  | p :: parts, s, k, acc, h, hown, hk, hacc => by
    have hown' : ∀ q ∈ parts, q.id = id → q.nodeAddress = req.contact.nodeAddress api ∧ q.total = T :=
      fun q hq => hown q (List.mem_cons_of_mem _ hq)
    rw [runParts_cons]
    by_cases hp : p.id = id
    · -- a part of the request: gathered, one more counted
      obtain ⟨haddr, htotal⟩ := hown p List.mem_cons_self hp
      obtain ⟨pa, pid, ptotal, pnodes⟩ := p
      simp only at hp haddr htotal
      -- the fixed arguments of the recursion mention `id` and `T`: eliminate the part's own
      subst pid pa ptotal
      simp only [List.countP_cons, keptNodes_cons, decide_true, if_true] at hk hacc ⊢
      have hstep : Progress (handleNodesResponse api maxNodesResponse s (req.contact.nodeAddress api)
          id T pnodes).1 id req (k + 1)
          (acc ++ (checkNodesDistances api.nodeId (req.contact.nodeAddress api).nodeId D pnodes).1) :=
        (h.part hbody hcb (by omega) hT (lt_of_le_of_lt (by simp) hacc)).1
      have := run hbody hcb hT parts hstep hown' (by omega) (by simpa using hacc)
      simpa [Nat.add_assoc, Nat.add_comm 1] using this
    · -- a part of another request
      simp only [List.countP_cons, keptNodes_cons, hp, decide_false, Bool.false_eq_true,
        if_false, Nat.add_zero, List.nil_append] at hk hacc ⊢
      exact run hbody hcb hT parts (h.other hp) hown' hk hacc

end Progress

/-! ## Reassembly over any interleaving -/

/-- A FINDNODE without callback, announced in `T` parts by its peer, among
parts of any other requests: every part before the last puts the request
back, and the last ends it and hands `discovered` the nodes kept of all its
parts in the order they came. -/
theorem nodes_parts_reassembled (api : EnrApi Enr Pk) (maxNodesResponse : Nat)
    {s : RpcState Enr Pk} {id : RequestId} {req : ActiveRequest Enr Pk} {D : List UInt64}
    {T : UInt64} (hreq : s.activeRequests id = some req) (hfresh : s.activeNodesResponses id = none)
    (hbody : req.requestBody = .findNode D) (hcb : req.callback = none)
    (hT : T.toNat ≤ maxNodesResponses) (parts : List (NodesPart Enr)) (p : NodesPart Enr)
    (hp : p.id = id)
    (hown : ∀ q ∈ parts ++ [p], q.id = id →
      q.nodeAddress = req.contact.nodeAddress api ∧ q.total = T)
    (hcount : parts.countP (·.id = id) < T.toNat)
    (hacc : (keptNodes api (req.contact.nodeAddress api).nodeId D id parts).length <
      maxNodesResponse) :
    let A := req.contact.nodeAddress api
    let r := handleNodesResponse api maxNodesResponse (runParts api maxNodesResponse s parts)
      p.nodeAddress p.id p.total p.nodes
    let bans := if (checkNodesDistances api.nodeId A.nodeId D p.nodes).2 then [Output.ban A] else []
    ((parts ++ [p]).countP (·.id = id) < T.toNat →
      r.1.activeRequests id = some req ∧ r.2 = bans) ∧
    ((parts ++ [p]).countP (·.id = id) = T.toNat →
      r.1.activeRequests id = none ∧ r.1.activeNodesResponses id = none ∧
        r.2 = bans ++ [.discovered A.nodeId (keptNodes api A.nodeId D id (parts ++ [p])) req.queryId]) := by
  obtain ⟨pa, pid, ptotal, pnodes⟩ := p
  obtain ⟨haddr, htotal⟩ := hown _ (List.mem_append_right _ (List.mem_singleton_self _)) hp
  simp only at hp haddr htotal
  subst pid pa ptotal
  intro A r bans
  -- the parts before `p` leave the request gathering
  have hrun := Progress.run hbody hcb hT parts (Progress.start hreq hfresh)
    (fun q hq => hown q (List.mem_append_left _ hq)) (by simpa using hcount) (by simpa using hacc)
  simp only [Nat.zero_add, List.nil_append] at hrun
  have hc : (parts ++ [(⟨A, id, T, pnodes⟩ : NodesPart Enr)]).countP (·.id = id) =
      parts.countP (·.id = id) + 1 := by
    simp
  have hkept : keptNodes api A.nodeId D id (parts ++ [⟨A, id, T, pnodes⟩]) =
      keptNodes api A.nodeId D id parts ++ (checkNodesDistances api.nodeId A.nodeId D pnodes).1 := by
    simp [keptNodes_append, keptNodes_cons]
  rw [hc, hkept]
  refine ⟨fun hlt => ?_, fun heq => ?_⟩
  · have hpart : Progress r.1 id req (parts.countP (·.id = id) + 1)
        (keptNodes api A.nodeId D id parts ++ (checkNodesDistances api.nodeId A.nodeId D pnodes).1) ∧
        r.2 = bans := hrun.part hbody hcb hlt hT hacc
    exact ⟨hpart.1.active, hpart.2⟩
  · exact hrun.last hbody hcb heq (keptNodes_eq_nil api A.nodeId D)

/-! ## A request with a callback -/

section Handler

variable {Sk : Type}

/-- The handler keeps a call through the first part of a NODES response in
several parts, waiting for one part fewer than announced. -/
theorem handleResponse_first_part {h : Handler Enr Sk Pk} {nodeAddress : NodeAddress}
    {id : RequestId} {call : RequestCall Enr Pk} {ar : ActiveRequests Enr Pk}
    (hrm : h.activeRequests.removeRequest nodeAddress id = (some call, ar))
    (hrem : call.remainingResponses = none) {total : UInt64} (hT : 1 < total) (nodes : List Enr) :
    { call with remainingResponses := some (total - 1) } ∈ VecMap.members
      (h.handleResponse nodeAddress ⟨id, .nodes total nodes⟩).activeRequests.activeRequestsMapping
      nodeAddress := by
  have hact : (h.handleResponse nodeAddress ⟨id, .nodes total nodes⟩).activeRequests =
      ar.insert nodeAddress { call with remainingResponses := some (total - 1) } := by
    simp [Handler.handleResponse, hrm, hrem, hT, Handler.emit]
  rw [hact, ActiveRequests.insert, VecMap.members_push, if_pos rfl]
  exact List.mem_append_right _ (List.mem_singleton_self _)

end Handler

/-- A FINDNODE made for the user ends at its first part, whatever the total
the peer announced: the callback gets the nodes of that part alone, a later
part finds no request, while the handler still waits for the other parts. -/
theorem designated_nodes_response_first_part (api : EnrApi Enr Pk) (maxNodesResponse : Nat)
    {s : RpcState Enr Pk} {id : RequestId} {req : ActiveRequest Enr Pk} {D : List UInt64}
    (hreq : s.activeRequests id = some req) (hbody : req.requestBody = .findNode D)
    (hcb : req.callback = some .nodes) (total : UInt64) (nodes₁ nodes₂ : List Enr) :
    let A := req.contact.nodeAddress api
    let r := handleNodesResponse api maxNodesResponse s A id total nodes₁
    r.2 = [.callback id nodes₁] ∧ r.1.activeRequests id = none ∧
      handleNodesResponse api maxNodesResponse r.1 A id total nodes₂ = (r.1, []) ∧
      ∀ {Sk : Type} (h : Handler Enr Sk Pk) (call : RequestCall Enr Pk) (ar : ActiveRequests Enr Pk),
        h.activeRequests.removeRequest A id = (some call, ar) → call.remainingResponses = none →
        1 < total →
        { call with remainingResponses := some (total - 1) } ∈ VecMap.members
          (h.handleResponse A ⟨id, .nodes total nodes₁⟩).activeRequests.activeRequestsMapping A := by
  intro A r
  obtain ⟨contact, requestBody, queryId, callback⟩ := req
  simp only at hbody hcb
  subst hbody hcb
  -- the callback branch returns with the request taken out
  have hr : r = (s.removeRequest id, [.callback id nodes₁]) := by
    simp [r, handleNodesResponse, hreq, A, Response.matchRequest]
  have hgone : r.1.activeRequests id = none := by simp [hr]
  exact ⟨by rw [hr], hgone, handleNodesResponse_unknown hgone,
    fun h call ar hrm hrem hT => handleResponse_first_part hrm hrem hT nodes₁⟩

/-- The request of a user's FINDNODE to B, id `[1]`, in an otherwise empty state. -/
def designatedState : RpcState Unit UInt8 where
  activeRequests i := if i = ⟨[1]⟩ then some ⟨toyContactB, .findNode [256], none, some .nodes⟩ else none
  activeNodesResponses _ := none

/-- B announces two parts, the first empty and the second with a record:
the user gets the empty first part, not both, and the request is gone
before the second. -/
theorem designated_nodes_response_first_part_toy :
    (handleNodesResponse toyApi 16 designatedState (toyContactB.nodeAddress toyApi) ⟨[1]⟩ 2 []).2 =
        [.callback ⟨[1]⟩ []] ∧
      (handleNodesResponse toyApi 16 designatedState (toyContactB.nodeAddress toyApi) ⟨[1]⟩ 2
        []).1.activeRequests ⟨[1]⟩ = none ∧
      handleNodesResponse toyApi 16
          (handleNodesResponse toyApi 16 designatedState (toyContactB.nodeAddress toyApi) ⟨[1]⟩ 2 []).1
          (toyContactB.nodeAddress toyApi) ⟨[1]⟩ 2 [()] =
        ((handleNodesResponse toyApi 16 designatedState (toyContactB.nodeAddress toyApi) ⟨[1]⟩ 2 []).1, []) :=
  have hreq : designatedState.activeRequests ⟨[1]⟩ =
      some ⟨toyContactB, .findNode [256], none, some .nodes⟩ := by simp [designatedState]
  have h := designated_nodes_response_first_part toyApi 16 hreq rfl rfl 2 [] [()]
  ⟨h.1, h.2.1, h.2.2.1⟩

end Discv5.Service
