import Discv5.QueryPool.Closest

/-!
# The predicate query

`src/query_pool/peers/predicate.rs`. A `PredicateQuery` is the closest-peers
query with a predicate over the results the peers report: every peer
carries whether it matched (`predicate_match`), and only matching peers
hold back the scan of `next` or count towards its result. Its `on_failure`
fails only a peer that is waited for; a peer that has already timed out
stays unresponsive (`FindNodeQuery::on_failure` fails it).
-/

namespace Discv5.QueryPool

open Kbucket

/-- `PredicateKey` of `src/kbucket.rs`: a key with whether its record
matched the predicate. -/
structure PredicateKey (TNodeId : Type) where
  key : TNodeId
  predicateMatch : Bool
  deriving DecidableEq, Repr

/-- `PredicateQuery`: the record of `FindNodeQuery` and the predicate. -/
structure PredicateQuery (TNodeId TResult : Type) extends FindNodeQuery TNodeId where
  predicate : TResult → Bool

namespace PredicateQuery

variable {TNodeId TResult : Type} (keyOf : TNodeId → NodeId)

/-- Only the peers that matched the predicate count. -/
def eligible (peer : QueryPeer TNodeId) : Bool := peer.predicateMatch

/-- `PredicateQuery::with_config`. -/
def withConfig (config : QueryConfig) (targetKey : TNodeId) (knownClosestPeers : List (PredicateKey TNodeId))
    (predicate : TResult → Bool) : PredicateQuery TNodeId TResult :=
  { toFindNodeQuery := (FindNodeQuery.withConfigOf keyOf config targetKey
      (knownClosestPeers.map fun key => (key.key, key.predicateMatch)))
    predicate }

/-- `PredicateQuery::on_success`; `intoNodeId` is `Into<TNodeId>` of the results. -/
def onSuccess (intoNodeId : TResult → TNodeId) (q : PredicateQuery TNodeId TResult) (nodeId : TNodeId)
    (closerPeers : List TResult) : PredicateQuery TNodeId TResult :=
  { q with toFindNodeQuery := (q.toFindNodeQuery.onSuccessWith keyOf nodeId
      (closerPeers.map fun result => (intoNodeId result, q.predicate result))) }

/-- `PredicateQuery::on_failure`: only a peer waited for fails. -/
def onFailure (q : PredicateQuery TNodeId TResult) (peer : TNodeId) : PredicateQuery TNodeId TResult :=
  if q.progress = .finished then q else
  let distance := distance (keyOf peer) (keyOf q.targetKey)
  match q.closestPeers.find? distance with
  | none => q
  | some p =>
    match p.state with
    | .waiting _ =>
      { q with numWaiting := q.numWaiting - 1,
               closestPeers := q.closestPeers.set distance { p with state := .failed } }
    | _ => q

/-- `PredicateQuery::next`. -/
def next (q : PredicateQuery TNodeId TResult) (now : Instant) :
    PredicateQuery TNodeId TResult × QueryState TNodeId :=
  let r := q.toFindNodeQuery.nextWith eligible now
  ({ q with toFindNodeQuery := r.1 }, r.2)

/-- `PredicateQuery::into_result`: the succeeded peers that matched. -/
def intoResult (q : PredicateQuery TNodeId TResult) : List TNodeId :=
  q.toFindNodeQuery.intoResultWith eligible

variable (intoNodeId : TResult → TNodeId)

/-- One call, with the state `next` returned. -/
def apply (q : PredicateQuery TNodeId TResult) :
    QueryCall TNodeId TResult → PredicateQuery TNodeId TResult × Option (QueryState TNodeId)
  | .next now => let r := q.next now; (r.1, some r.2)
  | .onSuccess peer closerPeers => (q.onSuccess keyOf intoNodeId peer closerPeers, none)
  | .onFailure peer => (q.onFailure keyOf peer, none)

/-- A run of calls, with the states its `next` calls returned. -/
def run (q : PredicateQuery TNodeId TResult) : List (QueryCall TNodeId TResult) →
    PredicateQuery TNodeId TResult × List (QueryState TNodeId)
  | [] => (q, [])
  | call :: calls =>
    let r := q.apply keyOf intoNodeId call
    let rest := r.1.run calls
    (rest.1, r.2.toList ++ rest.2)

end PredicateQuery

end Discv5.QueryPool
