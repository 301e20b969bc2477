import Mathlib
import Discv5.Lib.SortedMap
import Discv5.Kbucket.Key
import Discv5.Kbucket.Bucket

/-!
# The iterative closest-peers query

`src/query_pool/peers.rs` and `src/query_pool/peers/closest.rs`. A query
keeps the peers it knows in a `BTreeMap` from their distance to the target
(a `SortedMap`), each with its `QueryPeerState`, and counts by hand in
`num_waiting` the peers it waits for. `next` scans the peers in increasing
distance: it contacts the first peer not yet contacted unless the query is
at capacity, turns timed-out peers unresponsive, and finishes once
`num_results` of the closest peers have answered, or once nothing is left
to wait for.

`PredicateQuery` (`src/query_pool/peers/predicate.rs`) is a copy of this
state machine whose scan and result count only peers matching a predicate.
The shared record, the scan and the result are written once here, with
`eligible` for the peers that count (every peer for `FindNodeQuery`); each
query then has its own `on_failure`, the one function whose bodies differ.

Node ids are generic; a node id's `Key` is its hash, given by `keyOf` as
the 32 bytes the routing table's keys are made of, and `Key::distance` is
the XOR distance of `Kbucket.distance`. Instants and durations are counts
of one time unit.
-/

namespace Discv5.QueryPool

open Kbucket

/-- `Distance` derives `Ord` from `U256`, which compares the integers. -/
instance : LinearOrder Distance :=
  LinearOrder.lift' (fun d => d.val.toNat) fun a b h => by
    cases a
    cases b
    simpa using BitVec.eq_of_toNat_eq h

/-- `Instant`, as a count of time units. -/
abbrev Instant := Nat

/-- `QueryState`: what `next` asks the caller to do. -/
inductive QueryState (TNodeId : Type) where
  /-- Waiting for results, and contacting the given peer if there is one. -/
  | waiting (peer : Option TNodeId)
  | waitingAtCapacity
  | finished
  deriving DecidableEq, Repr

/-- `QueryPeerState`. -/
inductive QueryPeerState where
  | notContacted
  /-- Contacted; the instant is when the peer is considered unresponsive. -/
  | waiting (timeout : Instant)
  | succeeded
  | failed
  | unresponsive
  deriving DecidableEq, Repr

namespace QueryPeerState

/-- The query waits for a result of the peer. -/
def isWaiting : QueryPeerState → Bool
  | .waiting _ => true
  | _ => false

/-- The peer has answered, failed or timed out: the query will not contact
it or wait for it. -/
def isSettled : QueryPeerState → Bool
  | .succeeded | .failed | .unresponsive => true
  | _ => false

end QueryPeerState

/-- `QueryPeer`, with the `predicate_match` field of `predicate.rs`; a
`FindNodeQuery` sets it and never reads it. -/
structure QueryPeer (TNodeId : Type) where
  key : TNodeId
  peersReturned : Nat
  predicateMatch : Bool
  state : QueryPeerState
  deriving DecidableEq, Repr

/-- `QueryPeer::new`. -/
def QueryPeer.new {TNodeId : Type} (key : TNodeId) (state : QueryPeerState) (predicateMatch : Bool) :
    QueryPeer TNodeId :=
  ⟨key, 0, predicateMatch, state⟩

/-- `QueryProgress`. -/
inductive QueryProgress where
  /-- Making progress; the count of consecutive results without progress. -/
  | iterating (noProgress : Nat)
  | stalled
  | finished
  deriving DecidableEq, Repr

/-- `FindNodeQueryConfig`, and `PredicateQueryConfig`, which has the same fields. -/
structure QueryConfig where
  parallelism : Nat
  numResults : Nat
  peerTimeout : Nat
  deriving DecidableEq, Repr

/-- `new_from_config`, from `query_parallelism` and `query_peer_timeout`. -/
def QueryConfig.newFromConfig (queryParallelism queryPeerTimeout : Nat) : QueryConfig :=
  ⟨queryParallelism, maxNodesPerBucket, queryPeerTimeout⟩

/-- `FindNodeQuery`; the record of `PredicateQuery` without its predicate. -/
structure FindNodeQuery (TNodeId : Type) where
  targetKey : TNodeId
  progress : QueryProgress
  closestPeers : SortedMap Distance (QueryPeer TNodeId)
  numWaiting : Nat
  config : QueryConfig

/-- A call a query's owner makes: `next(now)`, `on_success(peer, closer_peers)`
or `on_failure(peer)`. -/
inductive QueryCall (TNodeId TCloser : Type) where
  | next (now : Instant)
  | onSuccess (peer : TNodeId) (closerPeers : List TCloser)
  | onFailure (peer : TNodeId)

/-- What the loop of `next` left: the peers, the count of waited-for peers,
and the state it returned early with, if it did. -/
structure NextLoop (TNodeId : Type) where
  peers : List (Distance × QueryPeer TNodeId)
  numWaiting : Nat
  exit : Option (QueryState TNodeId)

/-- The loop continues past the entry `e`, which it leaves as given. -/
def NextLoop.cons {TNodeId : Type} (e : Distance × QueryPeer TNodeId) (r : NextLoop TNodeId) :
    NextLoop TNodeId :=
  { r with peers := e :: r.peers }

namespace FindNodeQuery

section Core

variable {TNodeId : Type} (keyOf : TNodeId → NodeId)

/-- `with_config`, for the known peers with whether each matches the
predicate: the first `num_results` of them, under their distance to the
target. -/
def withConfigOf (config : QueryConfig) (targetKey : TNodeId) (knownClosestPeers : List (TNodeId × Bool)) :
    FindNodeQuery TNodeId :=
  { targetKey, config
    progress := .iterating 0
    closestPeers := SortedMap.ofList ((knownClosestPeers.map fun peer =>
      (distance (keyOf peer.1) (keyOf targetKey), QueryPeer.new peer.1 .notContacted peer.2)).take
        config.numResults)
    numWaiting := 0 }

/-- `at_capacity`: a stalled query may wait for `num_results` peers, an
iterating one for `parallelism`. -/
def atCapacity (q : FindNodeQuery TNodeId) : Bool :=
  match q.progress with
  | .stalled => decide (q.config.numResults ≤ q.numWaiting)
  | .iterating _ => decide (q.config.parallelism ≤ q.numWaiting)
  | .finished => true

/-- The progress update at the end of `on_success`. -/
def updateProgress (parallelism : Nat) (progress : Bool) : QueryProgress → QueryProgress
  | .iterating noProgress =>
    let noProgress := if progress then 0 else noProgress + 1
    if parallelism ≤ noProgress then .stalled else .iterating noProgress
  | .stalled => if progress then .iterating 0 else .stalled
  | .finished => .finished

/-- One turn of the loop of `on_success` over the reported peers. The flag
is overwritten at every turn, so it tells whether the last reported peer
made progress. -/
def insertCloserPeer (targetKey : TNodeId) (numClosest numResults : Nat)
    (acc : SortedMap Distance (QueryPeer TNodeId) × Bool) (peer : TNodeId × Bool) :
    SortedMap Distance (QueryPeer TNodeId) × Bool :=
  let distance := distance (keyOf targetKey) (keyOf peer.1)
  let closestPeers := acc.1.orInsert distance (QueryPeer.new peer.1 .notContacted peer.2)
  (closestPeers, closestPeers.firstKey? = some distance || decide (numClosest < numResults))

/-- The second half of `on_success`: the reported peers enter the map and
the progress is updated. -/
def incorporate (q : FindNodeQuery TNodeId) (closerPeers : List (TNodeId × Bool)) :
    FindNodeQuery TNodeId :=
  let numClosest := q.closestPeers.length
  let (closestPeers, progress) :=
    closerPeers.foldl (insertCloserPeer keyOf q.targetKey numClosest q.config.numResults)
      (q.closestPeers, false)
  { q with closestPeers, progress := updateProgress q.config.parallelism progress q.progress }

/-- `on_success`, for the reported peers with whether each matches the
predicate. A peer waited for or timed out becomes succeeded; any other
peer, or an unknown one, leaves the query as it is. -/
def onSuccessWith (q : FindNodeQuery TNodeId) (nodeId : TNodeId) (closerPeers : List (TNodeId × Bool)) :
    FindNodeQuery TNodeId :=
  if q.progress = .finished then q else
  let distance := distance (keyOf nodeId) (keyOf q.targetKey)
  match q.closestPeers.find? distance with
  | none => q
  | some peer =>
    let succeeded := { peer with peersReturned := peer.peersReturned + closerPeers.length,
                                 state := .succeeded }
    match peer.state with
    | .waiting _ =>
      incorporate keyOf { q with numWaiting := q.numWaiting - 1,
                                 closestPeers := q.closestPeers.set distance succeeded } closerPeers
    | .unresponsive =>
      incorporate keyOf { q with closestPeers := q.closestPeers.set distance succeeded } closerPeers
    | .notContacted | .failed | .succeeded => q

end Core

section Scan

variable {TNodeId : Type} (eligible : QueryPeer TNodeId → Bool) (config : QueryConfig)
  (atCapacity : Bool) (now : Instant)

/-- The loop of `next` over the peers in increasing distance, with the
result counter (`none` once an eligible peer is still awaited) and
`num_waiting`. -/
def nextLoop : Option Nat → Nat → List (Distance × QueryPeer TNodeId) → NextLoop TNodeId
  | _, numWaiting, [] => ⟨[], numWaiting, none⟩
  | resultCounter, numWaiting, (d, peer) :: rest =>
    match peer.state with
    | .notContacted =>
      if !atCapacity then
        ⟨(d, { peer with state := .waiting (now + config.peerTimeout) }) :: rest, numWaiting + 1,
          some (.waiting (some peer.key))⟩
      else ⟨(d, peer) :: rest, numWaiting, some .waitingAtCapacity⟩
    | .waiting timeout =>
      if timeout ≤ now then
        -- peers that do not answer in time become unresponsive
        (nextLoop resultCounter (numWaiting - 1) rest).cons (d, { peer with state := .unresponsive })
      else if atCapacity then ⟨(d, peer) :: rest, numWaiting, some .waitingAtCapacity⟩
      else (nextLoop (if eligible peer then none else resultCounter) numWaiting rest).cons (d, peer)
    | .succeeded =>
      match resultCounter with
      | some cnt =>
        if eligible peer then
          if config.numResults ≤ cnt + 1 then ⟨(d, peer) :: rest, numWaiting, some .finished⟩
          else (nextLoop (some (cnt + 1)) numWaiting rest).cons (d, peer)
        else (nextLoop (some cnt) numWaiting rest).cons (d, peer)
      | none => (nextLoop none numWaiting rest).cons (d, peer)
    | .failed | .unresponsive => (nextLoop resultCounter numWaiting rest).cons (d, peer)

/-- The loop rewrites peers, never distances. -/
theorem nextLoop_keys :
    ∀ (resultCounter : Option Nat) (numWaiting : Nat) (l : List (Distance × QueryPeer TNodeId)),
      (nextLoop eligible config atCapacity now resultCounter numWaiting l).peers.map Prod.fst =
        l.map Prod.fst
  | _, _, [] => rfl
  | resultCounter, numWaiting, (d, peer) :: rest => by
    unfold nextLoop
    split
    · split <;> rfl
    · split_ifs <;> simp [NextLoop.cons, nextLoop_keys]
    · split
      · split_ifs <;> simp [NextLoop.cons, nextLoop_keys]
      · simp [NextLoop.cons, nextLoop_keys]
    · simp [NextLoop.cons, nextLoop_keys]
    · simp [NextLoop.cons, nextLoop_keys]

end Scan

variable {TNodeId : Type}

/-- `next`, where only `eligible` peers hold back or count towards the result. -/
def nextWith (eligible : QueryPeer TNodeId → Bool) (q : FindNodeQuery TNodeId) (now : Instant) :
    FindNodeQuery TNodeId × QueryState TNodeId :=
  if q.progress = .finished then (q, .finished) else
  let r := nextLoop eligible q.config q.atCapacity now (some 0) q.numWaiting q.closestPeers.entries
  let q' := { q with
    closestPeers := q.closestPeers.withEntries r.peers (nextLoop_keys _ _ _ _ _ _ _)
    numWaiting := r.numWaiting }
  match r.exit with
  | some .finished => ({ q' with progress := .finished }, .finished)
  | some state => (q', state)
  | none =>
    -- nothing left to contact: wait for the peers still awaited, or finish
    if 0 < q'.numWaiting then (q', .waiting none) else ({ q' with progress := .finished }, .finished)

/-- `into_result`, for the peers that count: the succeeded ones, closest
first, at most `num_results`. -/
def intoResultWith (eligible : QueryPeer TNodeId → Bool) (q : FindNodeQuery TNodeId) : List TNodeId :=
  (q.closestPeers.values.filterMap fun peer =>
    match peer.state with
    | .succeeded => if eligible peer then some peer.key else none
    | _ => none).take q.config.numResults

/-! ## `FindNodeQuery` -/

variable (keyOf : TNodeId → NodeId)

/-- `FindNodeQuery::with_config`. -/
def withConfig (config : QueryConfig) (targetKey : TNodeId) (knownClosestPeers : List TNodeId) :
    FindNodeQuery TNodeId :=
  withConfigOf keyOf config targetKey (knownClosestPeers.map fun key => (key, true))

/-- `FindNodeQuery::on_success`. -/
def onSuccess (q : FindNodeQuery TNodeId) (nodeId : TNodeId) (closerPeers : List TNodeId) :
    FindNodeQuery TNodeId :=
  q.onSuccessWith keyOf nodeId (closerPeers.map fun key => (key, true))

/-- `FindNodeQuery::on_failure`: a peer waited for, or timed out, fails. -/
def onFailure (q : FindNodeQuery TNodeId) (peer : TNodeId) : FindNodeQuery TNodeId :=
  if q.progress = .finished then q else
  let distance := distance (keyOf peer) (keyOf q.targetKey)
  match q.closestPeers.find? distance with
  | none => q
  | some p =>
    match p.state with
    | .waiting _ =>
      { q with numWaiting := q.numWaiting - 1,
               closestPeers := q.closestPeers.set distance { p with state := .failed } }
    | .unresponsive => { q with closestPeers := q.closestPeers.set distance { p with state := .failed } }
    | _ => q

/-- `FindNodeQuery::next`: every peer counts. -/
def next (q : FindNodeQuery TNodeId) (now : Instant) : FindNodeQuery TNodeId × QueryState TNodeId :=
  q.nextWith (fun _ => true) now

/-- `FindNodeQuery::into_result`. -/
def intoResult (q : FindNodeQuery TNodeId) : List TNodeId :=
  q.intoResultWith fun _ => true

/-- One call, with the state `next` returned. -/
def apply (q : FindNodeQuery TNodeId) : QueryCall TNodeId TNodeId → FindNodeQuery TNodeId × Option (QueryState TNodeId)
  | .next now => let r := q.next now; (r.1, some r.2)
  | .onSuccess peer closerPeers => (q.onSuccess keyOf peer closerPeers, none)
  | .onFailure peer => (q.onFailure keyOf peer, none)

/-- A run of calls, with the states its `next` calls returned. -/
def run (q : FindNodeQuery TNodeId) : List (QueryCall TNodeId TNodeId) →
    FindNodeQuery TNodeId × List (QueryState TNodeId)
  | [] => (q, [])
  | call :: calls =>
    let r := q.apply keyOf call
    let rest := r.1.run calls
    (rest.1, r.2.toList ++ rest.2)

end FindNodeQuery

end Discv5.QueryPool
