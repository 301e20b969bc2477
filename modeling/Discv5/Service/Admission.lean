import Discv5.Service.RpcResponse
import Discv5.Kbucket.TableNodes

/-!
# Admission to the routing table

The paths by which records reach the routing table (`src/service.rs`,
`src/discv5.rs`): a session established with a node
(`inject_session_established`, then `connection_updated`), the records of a
NODES response (`discovered`), the record found for a peer that answered a
PING (the PONG branch of `handle_rpc_response`), and `Discv5::add_enr`;
and those by which they leave it: `remove_node`, an unverifiable record,
`disconnect_node` and a failed request. Only what these do to the table is
modelled, with the untrusted records of the ongoing queries, from which a
PONG can take the record.

`add_enr` and `discovered` check that a record has a contactable address
under the IP mode and passes `config.table_filter`; a PONG refreshes a
record only if it is contactable. `inject_session_established` checks the
address but never the filter.
-/

namespace Discv5.Service

open Rust Kbucket

variable {Enr Pk : Type}

/-- `IpMode`. -/
inductive IpMode where
  | ip4
  | ip6
  | dualStack
  deriving DecidableEq

theorem length_drop_twelve (octets : Arr UInt8 16) : (octets.toList.drop 12).length = 4 := by
  rw [List.length_drop, octets.length_toList]

/-- `to_ipv4_mapped`: the IPv4 address of an IPv4-mapped address `::ffff:a.b.c.d`. -/
def toIpv4Mapped (octets : Arr UInt8 16) : Option (Arr UInt8 4) :=
  if octets.toList.take 12 = List.replicate 10 0 ++ [0xff, 0xff] then
    some ⟨octets.toList.drop 12, length_drop_twelve octets⟩
  else none

/-- `IpMode::get_contactable_addr`: the socket a record's node is contacted at. -/
def IpMode.getContactableAddr (api : EnrApi Enr Pk) (ipMode : IpMode) (enr : Enr) :
    Option SocketAddr :=
  -- `canonical_ipv6_enr_addr`: an IPv4 address in the IPv6 field is refused
  let canonicalIpv6EnrAddr := (api.udp6Socket enr).bind fun socketAddr =>
    if (toIpv4Mapped socketAddr.ip).isSome then none else some socketAddr
  match ipMode with
  | .ip4 => (api.udp4Socket enr).map .v4
  | .ip6 => canonicalIpv6EnrAddr.map .v6
  | .dualStack => (canonicalIpv6EnrAddr.map .v6).or ((api.udp4Socket enr).map .v4)

/-- `ConnectionStatus`. -/
inductive ConnectionStatus (Enr : Type) where
  | connected (enr : Enr) (direction : Kbucket.ConnectionDirection)
  | pongReceived (enr : Enr)
  | disconnected

/-- What `KBucketsTable::entry` finds at a key. -/
inductive EntryFound (Enr : Type) where
  | present (value : Enr)
  | pending (value : Enr)
  | absent
  | selfEntry

section Table

variable [DecidableEq Enr] (api : EnrApi Enr Pk) (ipMode : IpMode) (now : Nat)

/-- `Service::connection_updated`, on the routing table. -/
def connectionUpdated (kbuckets : KBucketsTable Enr) (nodeId : NodeId) :
    ConnectionStatus Enr → Option (KBucketsTable Enr)
  | .connected enr direction =>
    (kbuckets.insertOrUpdate nodeId enr ⟨direction, .connected⟩ now).map (·.2)
  | .pongReceived enr => (kbuckets.updateNode nodeId enr (some .connected) now).map (·.2)
  | .disconnected => (kbuckets.updateNodeStatus nodeId .disconnected none now).map (·.2)

/-- `Service::inject_session_established`, on the routing table. -/
def injectSessionEstablished (kbuckets : KBucketsTable Enr) (enr : Enr)
    (connectionDirection : Kbucket.ConnectionDirection) : Option (KBucketsTable Enr) :=
  -- "Ignore sessions with non-contactable ENRs"
  if (ipMode.getContactableAddr api enr).isNone then some kbuckets
  else
    let nodeId := api.nodeId enr
    -- the direction of a node already in the table is kept
    let direction :=
      match kbuckets.bucketIndex nodeId with
      | some i =>
        match (kbuckets.buckets i).get nodeId with
        | some node => node.status.direction
        | none => connectionDirection
      | none => connectionDirection
    connectionUpdated now kbuckets nodeId (.connected enr direction)

/-- `Discv5::add_enr`. -/
def addEnr (tableFilter : Enr → Bool) (kbuckets : KBucketsTable Enr) (enr : Enr) :
    Option (Except String Unit × KBucketsTable Enr) :=
  if (ipMode.getContactableAddr api enr).isNone then
    some (.error "ENR has no compatible UDP socket to connect to", kbuckets)
  else if !tableFilter enr then some (.error "ENR banned by table filter", kbuckets)
  else do
    let (r, kbuckets) ←
      kbuckets.insertOrUpdate (api.nodeId enr) enr ⟨.incoming, .disconnected⟩ now
    let result : Except String Unit :=
      match r with
      | .failed .bucketFull => .error "Table full"
      | .failed .bucketFilter => .error "Failed bucket filter"
      | .failed .tableFilter => .error "Failed table filter"
      | .failed .invalidSelfUpdate => .error "Invalid self update"
      | .failed _ => .error "Failed to insert ENR"
      | _ => .ok ()
    pure (result, kbuckets)

/-- `KBucketsTable::entry(key)`, read: the node of the key, or the pending
node of the key, once the bucket's pending node is applied. -/
def findEntry (kbuckets : KBucketsTable Enr) (key : NodeId) :
    Option (EntryFound Enr × KBucketsTable Enr) :=
  match kbuckets.bucketIndex key with
  | some i => do
    let kbuckets ← kbuckets.applyPendingAt i now
    let bucket := kbuckets.buckets i
    -- `position` and `get` find the same node
    match bucket.get key, bucket.asPending key with
    | some node, _ => pure (.present node.value, kbuckets)
    | none, some p => pure (.pending p.node.value, kbuckets)
    | none, none => pure (.absent, kbuckets)
  | none => pure (.selfEntry, kbuckets)

/-- `kbuckets.write().entry(&key)` and `entry.remove()` on a present or
pending node whose record `stale` marks; both removals are
`bucket.remove(key)`. -/
def removeStaleEntry (kbuckets : KBucketsTable Enr) (key : NodeId) (stale : Enr → Bool) :
    Option (KBucketsTable Enr) :=
  match kbuckets.bucketIndex key with
  | some i => do
    let kbuckets ← kbuckets.applyPendingAt i now
    let bucket := kbuckets.buckets i
    let found :=
      match bucket.get key, bucket.asPending key with
      | some node, _ => some node.value
      | none, some p => some p.node.value
      | none, none => none
    if (found.map stale).getD false then
      let (_, b) ← bucket.remove key now
      pure (kbuckets.setBucket i b)
    else pure kbuckets
  | none => pure kbuckets

/-- The closure `Service::discovered` retains records with, on one record:
whether it stays in the list for the query, and the table it leaves. -/
def discoveredRetain (tableFilter : Enr → Bool) (localId source : NodeId)
    (kbuckets : KBucketsTable Enr) (enr : Enr) : Option (Bool × KBucketsTable Enr) :=
  if api.nodeId enr = localId then pure (false, kbuckets)
  else
    let key := api.nodeId enr
    if tableFilter enr && (ipMode.getContactableAddr api enr).isSome then do
      let (entry, kbuckets) ← findEntry now kbuckets key
      -- a present or pending node with an older record takes this one
      let mustUpdateEnr :=
        match entry with
        | .present value | .pending value => decide (api.seq value < api.seq enr)
        | _ => false
      if mustUpdateEnr then
        let (r, kbuckets) ← kbuckets.updateNode key enr none now
        -- "Remove this peer from the discovered list if the update failed"
        if r.failed? then pure (false, kbuckets) else pure (decide (source ≠ key), kbuckets)
      else pure (decide (source ≠ key), kbuckets)
    else do
      -- not contactable or filtered out: an older record of the node goes
      let kbuckets ← removeStaleEntry now kbuckets key fun value => decide (api.seq value < api.seq enr)
      pure (false, kbuckets)

/-- `Service::discovered`: the records kept for the query, and the table after. -/
def discovered (tableFilter : Enr → Bool) (localId source : NodeId) :
    KBucketsTable Enr → List Enr → Option (List Enr × KBucketsTable Enr)
  | kbuckets, [] => pure ([], kbuckets)
  | kbuckets, enr :: enrs => do
    let (keep, kbuckets) ← discoveredRetain api ipMode now tableFilter localId source kbuckets enr
    let (kept, kbuckets) ← discovered tableFilter localId source kbuckets enrs
    pure (if keep then enr :: kept else kept, kbuckets)

/-- `Service::find_enr`: the record of a node present in the table, else one
of the untrusted records of the ongoing queries with its node id. -/
def findEnr (kbuckets : KBucketsTable Enr) (untrustedEnrs : List Enr) (nodeId : NodeId) :
    Option (Option Enr × KBucketsTable Enr) := do
  let (entry, kbuckets) ← findEntry now kbuckets nodeId
  match entry with
  | .present value => pure (some value, kbuckets)
  | _ => pure (untrustedEnrs.find? (fun v => decide (api.nodeId v = nodeId)), kbuckets)

/-- The PONG branch of `Service::handle_rpc_response`, for a request without
callback, on the routing table: the record found for the peer refreshes
its entry when it is contactable. -/
def handlePong (kbuckets : KBucketsTable Enr) (untrustedEnrs : List Enr) (nodeId : NodeId) :
    Option (KBucketsTable Enr) := do
  let (found, kbuckets) ← findEnr api now kbuckets untrustedEnrs nodeId
  match found with
  | some enr =>
    -- "Only update the routing table if the new ENR is contactable"
    if (ipMode.getContactableAddr api enr).isSome then
      connectionUpdated now kbuckets nodeId (.pongReceived enr)
    else pure kbuckets
  | none => pure kbuckets

/-- The loop of `Service::discovered` that adds the records kept for a query
to its untrusted records, skipping a node id the query already has. -/
def pushUntrusted (untrustedEnrs : List Enr) : List Enr → List Enr
  | [] => untrustedEnrs
  | enr :: enrs =>
    pushUntrusted
      (if untrustedEnrs.any fun e => decide (api.nodeId e = api.nodeId enr) then untrustedEnrs
        else untrustedEnrs ++ [enr]) enrs

end Table

/-! ## The table along a run of the service -/

/-- What the paths to the routing table read and write: the table, and the
untrusted records of each ongoing query (`QueryInfo::untrusted_enrs`), in
the order `find_enr` visits the queries. -/
structure TableState (Enr : Type) where
  kbuckets : KBucketsTable Enr
  queries : List (List Enr)

/-- The calls of the service and of `Discv5` that read or write the routing
table. A query is named by its position in `queries`. -/
inductive TableEvent (Enr : Type) where
  /-- `HandlerOut::Established`: `inject_session_established`. -/
  | sessionEstablished (enr : Enr) (direction : Kbucket.ConnectionDirection)
  /-- `start_findnode_query`, its closest records taken for `n` items. -/
  | startQuery (target : NodeId) (n : Nat)
  /-- `start_predicate_query`, its closest records taken for `n` items. -/
  | startPredicateQuery (target : NodeId) (predicate : Enr → Bool) (n : Nat)
  /-- `discovered`: a NODES response, or the nodes a failed request had
  gathered, for the query `query` if any. -/
  | nodesResponse (source : NodeId) (enrs : List Enr) (query : Option Nat)
  | queryFinished (query : Nat)
  /-- A PONG to a request without callback. -/
  | pong (nodeId : NodeId)
  | findEnr (nodeId : NodeId)
  /-- `entry(key)` read by a PING, an IP vote or `Discv5::find_enr`. -/
  | entry (key : NodeId)
  /-- `iter()`: the connected peers to ping, the `table_entries*` calls. -/
  | iter
  /-- A FINDNODE request answered from the table. -/
  | nodesByDistances (log2Distances : List Nat) (maxNodes : Nat)
  /-- `bucket_maintenance_poll`. -/
  | takeAppliedPending
  /-- `HandlerOut::UnverifiableEnr`: `kbuckets.remove(key)`. -/
  | unverifiableEnr (nodeId : NodeId)
  /-- `rpc_failure` of a request without callback: `connection_updated(Disconnected)`. -/
  | requestFailed (nodeId : NodeId)
  | addEnr (enr : Enr)
  | removeNode (nodeId : NodeId)
  | disconnectNode (nodeId : NodeId)

section Run

variable [DecidableEq Enr] (api : EnrApi Enr Pk) (ipMode : IpMode) (tableFilter : Enr → Bool)
  (localId : NodeId)

/-- One event at instant `now`; `none` is an `unreachable!` of the table. -/
def TableEvent.apply (now : Nat) : TableEvent Enr → TableState Enr → Option (TableState Enr)
  | .sessionEstablished enr direction, s =>
    (injectSessionEstablished api ipMode now s.kbuckets enr direction).map
      fun kbuckets => { s with kbuckets }
  | .startQuery target n, s =>
    ((s.kbuckets.closestValues target).take now n).map fun (closest, it) =>
      -- no query is added when no peer is known
      ⟨it.table, if closest.isEmpty then s.queries else s.queries ++ [closest.map (·.value)]⟩
  | .startPredicateQuery target predicate n, s =>
    ((s.kbuckets.closestValuesPredicate target predicate).take now n).map fun (closest, it) =>
      ⟨it.table, if closest.isEmpty then s.queries else s.queries ++ [closest.map (·.value)]⟩
  | .nodesResponse source enrs query, s =>
    (discovered api ipMode now tableFilter localId source s.kbuckets enrs).map fun (kept, kbuckets) =>
      -- a query that ended takes no records
      ⟨kbuckets, match query with
        | some q => s.queries.modify q fun untrustedEnrs => pushUntrusted api untrustedEnrs kept
        | none => s.queries⟩
  | .queryFinished q, s => some { s with queries := s.queries.eraseIdx q }
  | .pong nodeId, s =>
    (handlePong api ipMode now s.kbuckets s.queries.flatten nodeId).map
      fun kbuckets => { s with kbuckets }
  | .findEnr nodeId, s =>
    (Service.findEnr api now s.kbuckets s.queries.flatten nodeId).map fun r => { s with kbuckets := r.2 }
  | .entry key, s => (Service.findEntry now s.kbuckets key).map fun r => { s with kbuckets := r.2 }
  | .iter, s => (s.kbuckets.iter now).map fun r => { s with kbuckets := r.2 }
  | .nodesByDistances log2Distances maxNodes, s =>
    (s.kbuckets.nodesByDistances log2Distances maxNodes now).map fun r => { s with kbuckets := r.2 }
  | .takeAppliedPending, s => some { s with kbuckets := s.kbuckets.takeAppliedPending.2 }
  | .unverifiableEnr nodeId, s =>
    (s.kbuckets.remove nodeId now).map fun r => { s with kbuckets := r.2 }
  | .requestFailed nodeId, s =>
    (connectionUpdated now s.kbuckets nodeId .disconnected).map fun kbuckets => { s with kbuckets }
  | .addEnr enr, s =>
    (Service.addEnr api ipMode now tableFilter s.kbuckets enr).map fun r => { s with kbuckets := r.2 }
  | .removeNode nodeId, s => (s.kbuckets.remove nodeId now).map fun r => { s with kbuckets := r.2 }
  | .disconnectNode nodeId, s =>
    (s.kbuckets.updateNodeStatus nodeId .disconnected none now).map
      fun r => { s with kbuckets := r.2 }

/-- A run of events, each at its instant, stopping at an `unreachable!`. -/
def TableEvent.run : TableState Enr → List (Nat × TableEvent Enr) → Option (TableState Enr)
  | s, [] => some s
  | s, (now, ev) :: evs => (ev.apply api ipMode tableFilter localId now s).bind fun s' =>
    TableEvent.run s' evs

end Run

/-! ## What the table is to hold -/

/-- What the routing table is to hold of a record under a key: a
contactable address under the IP mode, the approval of the configured
`table_filter`, and its node id as the key. -/
def Admitted (api : EnrApi Enr Pk) (ipMode : IpMode) (tableFilter : Enr → Bool) (key : NodeId)
    (enr : Enr) : Prop :=
  (ipMode.getContactableAddr api enr).isSome ∧ tableFilter enr = true ∧ key = api.nodeId enr

/-- A table that keeps its invariant and holds admitted records only. -/
structure AdmittedTable (api : EnrApi Enr Pk) (ipMode : IpMode) (tableFilter : Enr → Bool)
    (t : KBucketsTable Enr) : Prop where
  inv : t.Inv
  admitted : t.NodesSat fun n => Admitted api ipMode tableFilter n.key n.value

/-- A session with a node whose record the filter refuses puts the record
in the table, where `add_enr` refuses it. -/
theorem session_established_bypasses_table_filter [DecidableEq Enr] (api : EnrApi Enr Pk)
    (ipMode : IpMode) (tableFilter : Enr → Bool) (localKey : NodeId) (pendingTimeout : Nat)
    (enr : Enr) (direction : Kbucket.ConnectionDirection) (now : Nat)
    (hcontact : (ipMode.getContactableAddr api enr).isSome) (hlocal : api.nodeId enr ≠ localKey)
    (hfilter : tableFilter enr = false) :
    let kbuckets : KBucketsTable Enr := .new localKey pendingTimeout maxNodesPerBucket none none
    addEnr api ipMode now tableFilter kbuckets enr =
        some (.error "ENR banned by table filter", kbuckets) ∧
      ∃ t', injectSessionEstablished api ipMode now kbuckets enr direction = some t' ∧
        enr ∈ t'.tableIter ∧ ¬t'.NodesSat fun n => Admitted api ipMode tableFilter n.key n.value := by
  intro kbuckets
  obtain ⟨i, hi⟩ := exists_bucketIndex_new (Ne.symm hlocal)
  have hnone : (ipMode.getContactableAddr api enr).isNone = false := by simpa using hcontact
  refine ⟨by simp [addEnr, hnone, hfilter], ?_⟩
  -- the node's bucket is empty: the session puts the node in it
  obtain ⟨t', ht', hmem⟩ : ∃ t', injectSessionEstablished api ipMode now kbuckets enr direction =
      some t' ∧
      (⟨api.nodeId enr, enr, ⟨direction, .connected⟩⟩ : Node NodeId Enr) ∈ (t'.buckets i).nodes := by
    simp [injectSessionEstablished, hnone, hi, connectionUpdated, KBucketsTable.insertOrUpdate,
      kbuckets, KBucketsTable.new, KBucketsTable.bucketIndex, KBucketsTable.applyPendingAt,
      KBucket.applyPending, KBucket.new, KBucket.get, KBucketsTable.passedTableFilter,
      KBucket.position, KBucket.insert, KBucket.passesFilter, KBucket.isMaxIncoming,
      KBucket.numIncoming, maxNodesPerBucket]
  refine ⟨t', ht', KBucketsTable.mem_tableIter hmem, fun hsat => ?_⟩
  have := ((hsat i).nodes _ hmem).2.1
  rw [hfilter] at this
  cases this

/-- A record of node `oneNodeId` with an IPv4 socket. -/
def contactableApi : EnrApi Unit UInt8 where
  seq _ := 1
  publicKey _ := .secp256k1 3
  nodeId _ := KBucketsTable.oneNodeId
  udp4Socket _ := some ⟨Ipv4Addr.new 127 0 0 1, 9000⟩
  udp6Socket _ := none
  keyNodeId _ := KBucketsTable.oneNodeId

/-- With a filter that refuses every record, an incoming session from the
record's node puts it in an empty table. -/
theorem session_established_bypasses_table_filter_toy :
    let kbuckets : KBucketsTable Unit :=
      .new KBucketsTable.zeroNodeId 60 maxNodesPerBucket none none
    addEnr contactableApi .ip4 0 (fun _ => false) kbuckets () =
        some (.error "ENR banned by table filter", kbuckets) ∧
      ∃ t', injectSessionEstablished contactableApi .ip4 0 kbuckets () .incoming = some t' ∧
        () ∈ t'.tableIter ∧
        ¬t'.NodesSat fun n => Admitted contactableApi .ip4 (fun _ => false) n.key n.value :=
  session_established_bypasses_table_filter contactableApi .ip4 (fun _ => false)
    KBucketsTable.zeroNodeId 60 () .incoming 0 rfl (by decide) rfl

end Discv5.Service
