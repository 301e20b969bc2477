import Discv5.QueryPool.Invariant
import Discv5.Lib.ListMap

/-!
# The pool of queries

`src/query_pool.rs`. The service runs its lookups in a `QueryPool`: a hash
map from `QueryId` to `Query`, each query a `FindNodeQuery` or a
`PredicateQuery` with its target and the instant it was first polled, and
the counter `next_id` that numbers new queries (a `usize`, added to with
`wrapping_add`).

`poll` visits the queries in the map's order and advances each with `next`;
it stops at the first that finished, that has a peer to contact, or that
has waited `query_timeout` since it was first polled. A finished or timed-out
query leaves the pool and is handed back; a query with a peer to contact
stays and is lent out by its id.

The hash map is a list with one entry per id; its iteration order is
unspecified, so a run of the pool may reorder it at any point
(`Reachable.reorder`), and the results below hold for every order. Instants
and durations are counts of one time unit; `Instant - Instant` saturates.
The key of a target (`TargetKey::key`) is `key`.

The main results: every call keeps each live query's invariant and the
pool's ids, so in every reachable pool `poll` never panics and hands back
what its state says, a finished query carries a finished result, and
(`Ledger`) as long as at most `2^64` queries were added, every added query
is live or was handed back exactly once.
-/

set_option linter.dupNamespace false

namespace Discv5.QueryPool

open Kbucket

/-- `QueryId`, a `usize`. -/
structure QueryId where
  val : UInt64
  deriving DecidableEq, Repr

/-- `QueryPeerIter`. -/
inductive QueryPeerIter (TNodeId TResult : Type) where
  | findNode (iter : FindNodeQuery TNodeId)
  | predicate (iter : PredicateQuery TNodeId TResult)

/-- `Query`. -/
structure Query (TTarget TNodeId TResult : Type) where
  id : QueryId
  peerIter : QueryPeerIter TNodeId TResult
  started : Option Instant
  target : TTarget

/-- `QueryResult`. -/
structure QueryResult (TTarget TClosest : Type) where
  target : TTarget
  closestPeers : TClosest

/-- `QueryPoolState`. `Waiting(Some((query, peer)))` lends out the query
that stays in the pool; it is named here by its id. -/
inductive QueryPoolState (TTarget TNodeId TResult : Type) where
  | idle
  | waiting (next : Option (QueryId × TNodeId))
  | finished (query : Query TTarget TNodeId TResult)
  | timeout (query : Query TTarget TNodeId TResult)

/-- `QueryPool`; the hash map of queries has one entry per id. -/
structure QueryPool (TTarget TNodeId TResult : Type) where
  nextId : UInt64
  queryTimeout : Nat
  queries : List (QueryId × Query TTarget TNodeId TResult)
  nodup_queries : (queries.map Prod.fst).Nodup

/-- The query the loop of `poll` stopped at, and why. -/
inductive PollExit (TNodeId : Type) where
  | finished (queryId : QueryId)
  | waiting (queryId : QueryId) (returnPeer : TNodeId)
  | timeout (queryId : QueryId)

variable {TTarget TNodeId TResult : Type}

namespace Query

variable (keyOf : TNodeId → NodeId) (intoNodeId : TResult → TNodeId)

/-- `Query::new`: not yet polled. -/
def new (id : QueryId) (peerIter : QueryPeerIter TNodeId TResult) (target : TTarget) :
    Query TTarget TNodeId TResult :=
  ⟨id, peerIter, none, target⟩

/-- `Query::on_failure`. -/
def onFailure (query : Query TTarget TNodeId TResult) (peer : TNodeId) : Query TTarget TNodeId TResult :=
  match query.peerIter with
  | .findNode iter => { query with peerIter := .findNode (iter.onFailure keyOf peer) }
  | .predicate iter => { query with peerIter := .predicate (iter.onFailure keyOf peer) }

/-- `Query::on_success`: a `FindNodeQuery` is given the node ids of the
results, a `PredicateQuery` the results themselves. -/
def onSuccess (query : Query TTarget TNodeId TResult) (peer : TNodeId) (newPeers : List TResult) :
    Query TTarget TNodeId TResult :=
  match query.peerIter with
  | .findNode iter => { query with peerIter := .findNode (iter.onSuccess keyOf peer (newPeers.map intoNodeId)) }
  | .predicate iter => { query with peerIter := .predicate (iter.onSuccess keyOf intoNodeId peer newPeers) }

/-- `Query::next`. -/
def next (query : Query TTarget TNodeId TResult) (now : Instant) :
    Query TTarget TNodeId TResult × QueryState TNodeId :=
  match query.peerIter with
  | .findNode iter => let r := iter.next now; ({ query with peerIter := .findNode r.1 }, r.2)
  | .predicate iter => let r := iter.next now; ({ query with peerIter := .predicate r.1 }, r.2)

/-- `Query::into_result`. -/
def intoResult (query : Query TTarget TNodeId TResult) : QueryResult TTarget (List TNodeId) :=
  match query.peerIter with
  | .findNode iter => ⟨query.target, iter.intoResult⟩
  | .predicate iter => ⟨query.target, iter.intoResult⟩

end Query

namespace QueryPool

variable (keyOf : TNodeId → NodeId) (key : TTarget → TNodeId)

/-- `QueryPool::new`. -/
def new (queryTimeout : Nat) : QueryPool TTarget TNodeId TResult :=
  ⟨0, queryTimeout, [], List.nodup_nil⟩

/-- `QueryPool::add`: the query takes the next id, and `next_id` wraps. -/
def add (pool : QueryPool TTarget TNodeId TResult) (peerIter : QueryPeerIter TNodeId TResult)
    (target : TTarget) : QueryPool TTarget TNodeId TResult × QueryId :=
  let id : QueryId := ⟨pool.nextId⟩
  ({ nextId := pool.nextId + 1
     queryTimeout := pool.queryTimeout
     queries := ListMap.insert pool.queries id (Query.new id peerIter target)
     nodup_queries := ListMap.nodup_keys_insert pool.nodup_queries id _ }, id)

/-- `QueryPool::add_findnode_query`. -/
def addFindnodeQuery (pool : QueryPool TTarget TNodeId TResult) (config : QueryConfig) (target : TTarget)
    (peers : List TNodeId) : QueryPool TTarget TNodeId TResult × QueryId :=
  let targetKey := key target
  pool.add (.findNode (FindNodeQuery.withConfig keyOf config targetKey peers)) target

/-- `QueryPool::add_predicate_query`. -/
def addPredicateQuery (pool : QueryPool TTarget TNodeId TResult) (config : QueryConfig) (target : TTarget)
    (peers : List (PredicateKey TNodeId)) (predicate : TResult → Bool) :
    QueryPool TTarget TNodeId TResult × QueryId :=
  let targetKey := key target
  pool.add (.predicate (PredicateQuery.withConfig keyOf config targetKey peers predicate)) target

/-- `QueryPool::get_mut`, with what the caller then does to the query it
borrows; an unknown id leaves the pool as it is. -/
def getMut (pool : QueryPool TTarget TNodeId TResult) (id : QueryId)
    (update : Query TTarget TNodeId TResult → Query TTarget TNodeId TResult) :
    QueryPool TTarget TNodeId TResult :=
  { pool with
    queries := ListMap.modify pool.queries id update
    nodup_queries := (ListMap.keys_modify pool.queries id update).symm ▸ pool.nodup_queries }

/-- The loop of `poll` over the queries in the map's order. -/
def pollLoop (queryTimeout : Nat) (now : Instant) :
    List (QueryId × Query TTarget TNodeId TResult) →
      List (QueryId × Query TTarget TNodeId TResult) × Option (PollExit TNodeId)
  | [] => ([], none)
  | (queryId, query) :: rest =>
    let query := { query with started := query.started.or (some now) }
    let r := query.next now
    match r.2 with
    | .finished => ((queryId, r.1) :: rest, some (.finished queryId))
    | .waiting (some returnPeer) => ((queryId, r.1) :: rest, some (.waiting queryId returnPeer))
    | .waiting none | .waitingAtCapacity =>
      let elapsed := now - r.1.started.getD now
      if queryTimeout ≤ elapsed then ((queryId, r.1) :: rest, some (.timeout queryId))
      else
        let loop := pollLoop queryTimeout now rest
        ((queryId, r.1) :: loop.1, loop.2)

/-- The loop rewrites queries, never ids. -/
theorem pollLoop_keys (queryTimeout : Nat) (now : Instant) :
    ∀ l : List (QueryId × Query TTarget TNodeId TResult),
      (pollLoop queryTimeout now l).1.map Prod.fst = l.map Prod.fst
  | [] => rfl
  | (queryId, query) :: rest => by
    unfold pollLoop
    dsimp only
    split
    · rfl
    · rfl
    · split_ifs <;> simp [pollLoop_keys queryTimeout now rest]
    · split_ifs <;> simp [pollLoop_keys queryTimeout now rest]

theorem nodup_pollLoop (pool : QueryPool TTarget TNodeId TResult) (now : Instant) :
    ((pollLoop pool.queryTimeout now pool.queries).1.map Prod.fst).Nodup := by
  rw [pollLoop_keys]
  exact pool.nodup_queries

/-- `QueryPool::poll`. The loop stops at one query at most, so at most one
of the source's `waiting`, `finished` and `timeout` is set; the `expect`
on the query it names panics (`none`) if the id is not in the pool. -/
def poll (pool : QueryPool TTarget TNodeId TResult) (now : Instant) :
    Option (QueryPool TTarget TNodeId TResult × QueryPoolState TTarget TNodeId TResult) :=
  let r := pollLoop pool.queryTimeout now pool.queries
  let polled : QueryPool TTarget TNodeId TResult :=
    { pool with queries := r.1, nodup_queries := nodup_pollLoop pool now }
  match r.2 with
  | some (.waiting queryId returnPeer) =>
    match ListMap.lookup r.1 queryId with
    | some _ => some (polled, .waiting (some (queryId, returnPeer)))
    | none => none
  | some (.finished queryId) =>
    match ListMap.lookup r.1 queryId with
    | some query =>
      some ({ pool with queries := ListMap.erase r.1 queryId
                        nodup_queries := ListMap.nodup_keys_erase (nodup_pollLoop pool now) queryId },
        .finished query)
    | none => none
  | some (.timeout queryId) =>
    match ListMap.lookup r.1 queryId with
    | some query =>
      some ({ pool with queries := ListMap.erase r.1 queryId
                        nodup_queries := ListMap.nodup_keys_erase (nodup_pollLoop pool now) queryId },
        .timeout query)
    | none => none
  | none => if r.1.isEmpty then some (polled, .idle) else some (polled, .waiting none)

/-- A call of the pool's owner: the service adds queries, polls the pool,
and, through `get_mut`, reports to a query what a peer answered or changes
its target. -/
inductive PoolCall (TTarget TNodeId TResult : Type) where
  | addFindnodeQuery (config : QueryConfig) (target : TTarget) (peers : List TNodeId)
  | addPredicateQuery (config : QueryConfig) (target : TTarget) (peers : List (PredicateKey TNodeId))
      (predicate : TResult → Bool)
  | poll (now : Instant)
  | onSuccess (queryId : QueryId) (peer : TNodeId) (newPeers : List TResult)
  | onFailure (queryId : QueryId) (peer : TNodeId)
  | updateTarget (queryId : QueryId) (update : TTarget → TTarget)

/-- What a call hands back to the owner. -/
inductive PoolOutput (TTarget TNodeId TResult : Type) where
  | added (queryId : QueryId)
  | polled (state : QueryPoolState TTarget TNodeId TResult)
  | updated

variable (intoNodeId : TResult → TNodeId)

/-- One call; `none` if it panics. -/
def apply (pool : QueryPool TTarget TNodeId TResult) :
    PoolCall TTarget TNodeId TResult → Option (QueryPool TTarget TNodeId TResult × PoolOutput TTarget TNodeId TResult)
  | .addFindnodeQuery config target peers =>
    let r := pool.addFindnodeQuery keyOf key config target peers
    some (r.1, .added r.2)
  | .addPredicateQuery config target peers predicate =>
    let r := pool.addPredicateQuery keyOf key config target peers predicate
    some (r.1, .added r.2)
  | .poll now => (pool.poll now).map fun r => (r.1, .polled r.2)
  | .onSuccess queryId peer newPeers =>
    some (pool.getMut queryId fun query => query.onSuccess keyOf intoNodeId peer newPeers, .updated)
  | .onFailure queryId peer => some (pool.getMut queryId fun query => query.onFailure keyOf peer, .updated)
  | .updateTarget queryId update =>
    some (pool.getMut queryId fun query => { query with target := update query.target }, .updated)

/-- The same pool with its queries in another order. -/
def withQueries (pool : QueryPool TTarget TNodeId TResult) (queries : List (QueryId × Query TTarget TNodeId TResult))
    (hperm : queries.Perm pool.queries) : QueryPool TTarget TNodeId TResult :=
  { pool with queries, nodup_queries := (hperm.map Prod.fst).nodup_iff.2 pool.nodup_queries }

/-- The pools a run of calls reaches from `pool₀`, with what the calls
handed back. The hash map may change its order of iteration between any
two calls. -/
inductive Reachable (pool₀ : QueryPool TTarget TNodeId TResult) :
    QueryPool TTarget TNodeId TResult → List (PoolOutput TTarget TNodeId TResult) → Prop
  | init : Reachable pool₀ pool₀ []
  | step {pool pool' : QueryPool TTarget TNodeId TResult} {outs : List (PoolOutput TTarget TNodeId TResult)}
      {out : PoolOutput TTarget TNodeId TResult} (hr : Reachable pool₀ pool outs)
      (call : PoolCall TTarget TNodeId TResult)
      (hs : pool.apply keyOf key intoNodeId call = some (pool', out)) : Reachable pool₀ pool' (outs ++ [out])
  | reorder {pool : QueryPool TTarget TNodeId TResult} {outs : List (PoolOutput TTarget TNodeId TResult)}
      (hr : Reachable pool₀ pool outs) (queries : List (QueryId × Query TTarget TNodeId TResult))
      (hperm : queries.Perm pool.queries) : Reachable pool₀ (pool.withQueries queries hperm) outs

/-- A run of calls in the map's order of iteration, appending what they
hand back to `outs`; `none` if a call panics. -/
def runCalls : QueryPool TTarget TNodeId TResult → List (PoolOutput TTarget TNodeId TResult) →
    List (PoolCall TTarget TNodeId TResult) →
      Option (QueryPool TTarget TNodeId TResult × List (PoolOutput TTarget TNodeId TResult))
  | pool, outs, [] => some (pool, outs)
  | pool, outs, call :: calls =>
    (pool.apply keyOf key intoNodeId call).bind fun r => runCalls r.1 (outs ++ [r.2]) calls

/-- A run that does not panic reaches the pool it ends with. -/
theorem Reachable.runCalls {pool₀ pool : QueryPool TTarget TNodeId TResult}
    {outs : List (PoolOutput TTarget TNodeId TResult)} (hr : Reachable keyOf key intoNodeId pool₀ pool outs) :
    ∀ {calls : List (PoolCall TTarget TNodeId TResult)} {pool' : QueryPool TTarget TNodeId TResult}
      {outs' : List (PoolOutput TTarget TNodeId TResult)},
      QueryPool.runCalls keyOf key intoNodeId pool outs calls = some (pool', outs') →
      Reachable keyOf key intoNodeId pool₀ pool' outs'
  | [], _, _, h => by
    cases h
    exact hr
  | call :: calls, _, _, h => by
    cases hs : pool.apply keyOf key intoNodeId call with
    | none => simp [QueryPool.runCalls, hs] at h
    | some r =>
      rw [QueryPool.runCalls, hs, Option.bind_some] at h
      exact (Reachable.step hr call hs).runCalls h

end QueryPool

/-! ## Queries -/

namespace QueryPeerIter

variable (keyOf : TNodeId → NodeId)

/-- The invariant of a peer iterator: that of its kind of query, over the
peers that count for it. -/
def Inv : QueryPeerIter TNodeId TResult → Prop
  | .findNode iter => FindNodeQuery.Inv keyOf (fun _ => true) iter
  | .predicate iter => FindNodeQuery.Inv keyOf PredicateQuery.eligible iter.toFindNodeQuery

/-- A finished result, over the peers that count. -/
def Finished : QueryPeerIter TNodeId TResult → Prop
  | .findNode iter => FindNodeQuery.FinishedResult keyOf (fun _ => true) iter
  | .predicate iter => FindNodeQuery.FinishedResult keyOf PredicateQuery.eligible iter.toFindNodeQuery

/-- What holds of a live query of its kind: the waiting counter is exact and
bounded, and a `next` that returns `Finished` leaves a finished result. -/
def Guarantees : QueryPeerIter TNodeId TResult → Prop
  | .findNode iter => FindNodeQuery.Guarantees keyOf (fun _ => true) iter
  | .predicate iter => FindNodeQuery.Guarantees keyOf PredicateQuery.eligible iter.toFindNodeQuery

variable {keyOf} in
theorem guarantees_of_inv {peerIter : QueryPeerIter TNodeId TResult} (h : peerIter.Inv keyOf) :
    peerIter.Guarantees keyOf := by
  cases peerIter with
  | findNode iter => exact FindNodeQuery.Inv.guarantees keyOf _ h
  | predicate iter => exact FindNodeQuery.Inv.guarantees keyOf _ h

end QueryPeerIter

namespace Query

variable (keyOf : TNodeId → NodeId) (intoNodeId : TResult → TNodeId)

/-- A query as the loop of `poll` leaves it, with what its `next` returned. -/
def polled (query : Query TTarget TNodeId TResult) (now : Instant) :
    Query TTarget TNodeId TResult × QueryState TNodeId :=
  { query with started := query.started.or (some now) }.next now

@[simp] theorem next_id (query : Query TTarget TNodeId TResult) (now : Instant) :
    (query.next now).1.id = query.id := by
  unfold next
  split <;> rfl

@[simp] theorem next_started (query : Query TTarget TNodeId TResult) (now : Instant) :
    (query.next now).1.started = query.started := by
  unfold next
  split <;> rfl

@[simp] theorem polled_id (query : Query TTarget TNodeId TResult) (now : Instant) :
    (query.polled now).1.id = query.id :=
  next_id _ now

theorem polled_started (query : Query TTarget TNodeId TResult) (now : Instant) :
    (query.polled now).1.started = query.started.or (some now) :=
  next_started _ now

@[simp] theorem onSuccess_id (query : Query TTarget TNodeId TResult) (peer : TNodeId) (newPeers : List TResult) :
    (query.onSuccess keyOf intoNodeId peer newPeers).id = query.id := by
  unfold onSuccess
  split <;> rfl

@[simp] theorem onFailure_id (query : Query TTarget TNodeId TResult) (peer : TNodeId) :
    (query.onFailure keyOf peer).id = query.id := by
  unfold onFailure
  split <;> rfl

variable {keyOf}

theorem inv_next {query : Query TTarget TNodeId TResult} (h : query.peerIter.Inv keyOf) (now : Instant) :
    (query.next now).1.peerIter.Inv keyOf := by
  unfold next
  split
  · rename_i iter hiter
    rw [hiter] at h
    exact FindNodeQuery.Inv.nextWith keyOf _ h now
  · rename_i iter hiter
    rw [hiter] at h
    exact FindNodeQuery.Inv.nextWith keyOf _ h now

theorem inv_polled {query : Query TTarget TNodeId TResult} (h : query.peerIter.Inv keyOf) (now : Instant) :
    (query.polled now).1.peerIter.Inv keyOf :=
  @inv_next _ _ _ keyOf { query with started := query.started.or (some now) } h now

/-- A `next` that returns `Finished` leaves a finished result. -/
theorem finished_next {query : Query TTarget TNodeId TResult} (h : query.peerIter.Inv keyOf) {now : Instant}
    (hs : (query.next now).2 = .finished) : (query.next now).1.peerIter.Finished keyOf := by
  unfold next at hs ⊢
  split at hs
  · rename_i iter hiter
    rw [hiter] at h
    exact (h.guarantees keyOf _).finished now hs
  · rename_i iter hiter
    rw [hiter] at h
    exact (h.guarantees keyOf _).finished now hs

theorem finished_polled {query : Query TTarget TNodeId TResult} (h : query.peerIter.Inv keyOf) {now : Instant}
    (hs : (query.polled now).2 = .finished) : (query.polled now).1.peerIter.Finished keyOf :=
  @finished_next _ _ _ keyOf { query with started := query.started.or (some now) } h now hs

theorem inv_onSuccess {query : Query TTarget TNodeId TResult} (h : query.peerIter.Inv keyOf) (peer : TNodeId)
    (newPeers : List TResult) : (query.onSuccess keyOf intoNodeId peer newPeers).peerIter.Inv keyOf := by
  unfold onSuccess
  split
  · rename_i iter hiter
    rw [hiter] at h
    exact FindNodeQuery.Inv.onSuccessWith keyOf _ h peer _
  · rename_i iter hiter
    rw [hiter] at h
    exact FindNodeQuery.Inv.onSuccessWith keyOf _ h peer _

theorem inv_onFailure {query : Query TTarget TNodeId TResult} (h : query.peerIter.Inv keyOf) (peer : TNodeId) :
    (query.onFailure keyOf peer).peerIter.Inv keyOf := by
  unfold onFailure
  split
  · rename_i iter hiter
    rw [hiter] at h
    exact FindNodeQuery.Inv.onFailure keyOf _ h peer
  · rename_i iter hiter
    rw [hiter] at h
    exact PredicateQuery.Inv.onFailure keyOf h peer

end Query

/-! ## The loop of `poll` -/

namespace PollExit

/-- The id of the query the loop stopped at. -/
def queryId : PollExit TNodeId → QueryId
  | .finished queryId | .waiting queryId _ | .timeout queryId => queryId

/-- Why the loop stops at a query, by what its `next` returned. -/
def StopsAt (queryTimeout : Nat) (now : Instant) :
    PollExit TNodeId → Query TTarget TNodeId TResult × QueryState TNodeId → Prop
  | .finished _, r => r.2 = .finished
  | .waiting _ returnPeer, r => r.2 = .waiting (some returnPeer)
  | .timeout _, r => (r.2 = .waiting none ∨ r.2 = .waitingAtCapacity) ∧
      queryTimeout ≤ now - r.1.started.getD now

end PollExit

namespace QueryPool

section Loop

variable (queryTimeout : Nat) (now : Instant)

/-- Every query the loop leaves is one of the pool's, as it was or polled. -/
theorem mem_pollLoop :
    ∀ {l : List (QueryId × Query TTarget TNodeId TResult)} {e : QueryId × Query TTarget TNodeId TResult},
      e ∈ (pollLoop queryTimeout now l).1 → ∃ query, (e.1, query) ∈ l ∧ (e.2 = query ∨ e.2 = (query.polled now).1)
  | [], e, he => by simp [pollLoop] at he
  | (queryId, query) :: rest, e, he => by
    -- the head is left polled; the rest is left as it was, or by the loop over it
    have hhead : e = (queryId, (query.polled now).1) →
        ∃ q, (e.1, q) ∈ (queryId, query) :: rest ∧ (e.2 = q ∨ e.2 = (q.polled now).1) := by
      rintro rfl
      exact ⟨query, List.mem_cons_self, .inr rfl⟩
    have hrest : e ∈ rest → ∃ q, (e.1, q) ∈ (queryId, query) :: rest ∧ (e.2 = q ∨ e.2 = (q.polled now).1) :=
      fun he => ⟨e.2, List.mem_cons_of_mem _ he, .inl rfl⟩
    have hloop : e ∈ (pollLoop queryTimeout now rest).1 →
        ∃ q, (e.1, q) ∈ (queryId, query) :: rest ∧ (e.2 = q ∨ e.2 = (q.polled now).1) := by
      intro he
      obtain ⟨q, hq, hcase⟩ := mem_pollLoop he
      exact ⟨q, List.mem_cons_of_mem _ hq, hcase⟩
    unfold pollLoop at he
    dsimp only at he
    split at he
    · exact (List.mem_cons.1 he).elim hhead hrest
    · exact (List.mem_cons.1 he).elim hhead hrest
    · split_ifs at he
      · exact (List.mem_cons.1 he).elim hhead hrest
      · exact (List.mem_cons.1 he).elim hhead hloop
    · split_ifs at he
      · exact (List.mem_cons.1 he).elim hhead hrest
      · exact (List.mem_cons.1 he).elim hhead hloop

/-- The loop stops at a query of the pool, which it leaves polled, for the
reason its exit names. -/
theorem pollLoop_exit :
    ∀ {l : List (QueryId × Query TTarget TNodeId TResult)} {x : PollExit TNodeId},
      (pollLoop queryTimeout now l).2 = some x →
      ∃ query, (x.queryId, query) ∈ l ∧ (x.queryId, (query.polled now).1) ∈ (pollLoop queryTimeout now l).1 ∧
        x.StopsAt queryTimeout now (query.polled now)
  | [], x, hx => by simp [pollLoop] at hx
  | (queryId, query) :: rest, x, hx => by
    unfold pollLoop at hx ⊢
    dsimp only at hx ⊢
    split at hx
    · rename_i hs
      cases hx
      exact ⟨query, List.mem_cons_self, List.mem_cons_self, hs⟩
    · rename_i returnPeer hs
      cases hx
      exact ⟨query, List.mem_cons_self, List.mem_cons_self, hs⟩
    · rename_i hs
      split_ifs at hx ⊢ with htime
      · cases hx
        exact ⟨query, List.mem_cons_self, List.mem_cons_self, .inl hs, htime⟩
      · obtain ⟨q, hq, hloop, hstop⟩ := pollLoop_exit hx
        exact ⟨q, List.mem_cons_of_mem _ hq, List.mem_cons_of_mem _ hloop, hstop⟩
    · rename_i hs
      split_ifs at hx ⊢ with htime
      · cases hx
        exact ⟨query, List.mem_cons_self, List.mem_cons_self, .inr hs, htime⟩
      · obtain ⟨q, hq, hloop, hstop⟩ := pollLoop_exit hx
        exact ⟨q, List.mem_cons_of_mem _ hq, List.mem_cons_of_mem _ hloop, hstop⟩

end Loop

/-! ## The pool's invariant -/

variable (keyOf : TNodeId → NodeId) (key : TTarget → TNodeId) (intoNodeId : TResult → TNodeId)

/-- Every query is filed under its own id and keeps the invariant of its
peer iterator. -/
structure PoolInv (pool : QueryPool TTarget TNodeId TResult) : Prop where
  keyed : ∀ e ∈ pool.queries, e.2.id = e.1
  iter_inv : ∀ e ∈ pool.queries, e.2.peerIter.Inv keyOf

theorem PoolInv.new (queryTimeout : Nat) : PoolInv keyOf (new queryTimeout : QueryPool TTarget TNodeId TResult) :=
  ⟨by simp [QueryPool.new], by simp [QueryPool.new]⟩

variable {keyOf}

theorem PoolInv.add {pool : QueryPool TTarget TNodeId TResult} (h : PoolInv keyOf pool)
    {peerIter : QueryPeerIter TNodeId TResult} (hiter : peerIter.Inv keyOf) (target : TTarget) :
    PoolInv keyOf (pool.add peerIter target).1 where
  keyed e he := by
    rcases ListMap.mem_insert.1 he with ⟨he, -⟩ | rfl
    · exact h.keyed e he
    · rfl
  iter_inv e he := by
    rcases ListMap.mem_insert.1 he with ⟨he, -⟩ | rfl
    · exact h.iter_inv e he
    · exact hiter

/-- A change of the query borrowed through `get_mut` that keeps its id and
its invariant keeps the pool's. -/
theorem PoolInv.getMut {pool : QueryPool TTarget TNodeId TResult} (h : PoolInv keyOf pool) (queryId : QueryId)
    {update : Query TTarget TNodeId TResult → Query TTarget TNodeId TResult}
    (hid : ∀ query, (update query).id = query.id)
    (hinv : ∀ query : Query TTarget TNodeId TResult, query.peerIter.Inv keyOf → (update query).peerIter.Inv keyOf) :
    PoolInv keyOf (pool.getMut queryId update) where
  keyed e he := by
    rcases ListMap.mem_modify he with he | ⟨query, hq, rfl⟩
    · exact h.keyed e he
    · rw [hid]
      exact h.keyed _ hq
  iter_inv e he := by
    rcases ListMap.mem_modify he with he | ⟨query, hq, rfl⟩
    · exact h.iter_inv e he
    · exact hinv _ (h.iter_inv _ hq)

theorem PoolInv.withQueries {pool : QueryPool TTarget TNodeId TResult} (h : PoolInv keyOf pool)
    (queries : List (QueryId × Query TTarget TNodeId TResult)) (hperm : queries.Perm pool.queries) :
    PoolInv keyOf (pool.withQueries queries hperm) :=
  ⟨fun e he => h.keyed e (hperm.mem_iff.1 he), fun e he => h.iter_inv e (hperm.mem_iff.1 he)⟩

/-- The loop of `poll` keeps every query filed under its id, with its invariant. -/
theorem PoolInv.pollLoop_entries {pool : QueryPool TTarget TNodeId TResult} (h : PoolInv keyOf pool) (now : Instant) :
    ∀ e ∈ (pollLoop pool.queryTimeout now pool.queries).1, e.2.id = e.1 ∧ e.2.peerIter.Inv keyOf := by
  intro e he
  obtain ⟨query, hq, hcase | hcase⟩ := mem_pollLoop pool.queryTimeout now he
  · rw [hcase]
    exact ⟨h.keyed _ hq, h.iter_inv _ hq⟩
  · rw [hcase, Query.polled_id]
    exact ⟨h.keyed _ hq, Query.inv_polled (h.iter_inv _ hq) now⟩

/-! ## What `poll` hands back -/

variable (keyOf) in
/-- What `poll` hands back, by the state it returns: `Idle` only for an
empty pool; a query lent out, or waited for, stays in the pool; a finished
or timed-out query leaves it, a finished one with a finished result and a
timed-out one once `query_timeout` has passed since it was first polled. -/
def PollResult (pool pool' : QueryPool TTarget TNodeId TResult) (now : Instant) :
    QueryPoolState TTarget TNodeId TResult → Prop
  | .idle => pool.queries = [] ∧ pool'.queries = []
  | .waiting none => pool.queries ≠ [] ∧ pool'.queries.map Prod.fst = pool.queries.map Prod.fst
  | .waiting (some (queryId, _)) => queryId ∈ pool.queries.map Prod.fst ∧
      pool'.queries.map Prod.fst = pool.queries.map Prod.fst
  | .finished query => query.id ∈ pool.queries.map Prod.fst ∧
      pool'.queries.map Prod.fst = (pool.queries.map Prod.fst).erase query.id ∧ query.peerIter.Finished keyOf
  | .timeout query => query.id ∈ pool.queries.map Prod.fst ∧
      pool'.queries.map Prod.fst = (pool.queries.map Prod.fst).erase query.id ∧
      ∃ started, query.started = some started ∧ pool.queryTimeout ≤ now - started

/-- `poll` changes the queries only. -/
theorem poll_nextId {pool pool' : QueryPool TTarget TNodeId TResult} {now : Instant}
    {state : QueryPoolState TTarget TNodeId TResult} (h : pool.poll now = some (pool', state)) :
    pool'.nextId = pool.nextId := by
  unfold QueryPool.poll at h
  dsimp only at h
  split at h <;> split at h <;> first | (cases h; rfl) | cases h

/-- In a pool whose invariant holds, `poll` never panics: the query its
loop stopped at is in the pool. It keeps the invariant and hands back what
`PollResult` says. -/
theorem PoolInv.poll {pool : QueryPool TTarget TNodeId TResult} (h : PoolInv keyOf pool) (now : Instant) :
    ∃ pool' state, pool.poll now = some (pool', state) ∧ PoolInv keyOf pool' ∧
      PollResult keyOf pool pool' now state := by
  have hloop := h.pollLoop_entries now
  have hkeys := pollLoop_keys pool.queryTimeout now pool.queries
  have hnodup := nodup_pollLoop pool now
  -- the pool the loop leaves, and the same pool without one query, keep the invariant
  have hpolled : PoolInv keyOf
      ⟨pool.nextId, pool.queryTimeout, (pollLoop pool.queryTimeout now pool.queries).1, hnodup⟩ :=
    ⟨fun e he => (hloop e he).1, fun e he => (hloop e he).2⟩
  have herased : ∀ queryId, PoolInv keyOf ⟨pool.nextId, pool.queryTimeout,
      ListMap.erase (pollLoop pool.queryTimeout now pool.queries).1 queryId,
      ListMap.nodup_keys_erase hnodup queryId⟩ := fun queryId =>
    ⟨fun e he => (hloop e (List.mem_of_mem_filter he)).1, fun e he => (hloop e (List.mem_of_mem_filter he)).2⟩
  unfold QueryPool.poll
  dsimp only
  split
  · -- a query with a peer to contact is lent out
    rename_i queryId returnPeer hx
    obtain ⟨query, hq, hmem, -⟩ := pollLoop_exit pool.queryTimeout now hx
    dsimp only [PollExit.queryId] at hq hmem
    rw [(ListMap.lookup_eq_some_iff hnodup).2 hmem]
    exact ⟨_, _, rfl, hpolled, List.mem_map_of_mem (f := Prod.fst) hq, hkeys⟩
  · -- a finished query leaves the pool with its result
    rename_i queryId hx
    obtain ⟨query, hq, hmem, hstop⟩ := pollLoop_exit pool.queryTimeout now hx
    dsimp only [PollExit.queryId, PollExit.StopsAt] at hq hmem hstop
    have hid : (query.polled now).1.id = queryId := by
      rw [Query.polled_id]
      exact h.keyed _ hq
    rw [(ListMap.lookup_eq_some_iff hnodup).2 hmem]
    refine ⟨_, _, rfl, herased queryId, ?_, ?_, ?_⟩
    · rw [hid]
      exact List.mem_map_of_mem (f := Prod.fst) hq
    · rw [hid, ListMap.keys_erase hnodup, hkeys]
    · exact Query.finished_polled (h.iter_inv _ hq) hstop
  · -- a query waited for too long leaves the pool
    rename_i queryId hx
    obtain ⟨query, hq, hmem, -, htime⟩ := pollLoop_exit pool.queryTimeout now hx
    dsimp only [PollExit.queryId] at hq hmem
    have hid : (query.polled now).1.id = queryId := by
      rw [Query.polled_id]
      exact h.keyed _ hq
    rw [(ListMap.lookup_eq_some_iff hnodup).2 hmem]
    refine ⟨_, _, rfl, herased queryId, ?_, ?_, ?_⟩
    · rw [hid]
      exact List.mem_map_of_mem (f := Prod.fst) hq
    · rw [hid, ListMap.keys_erase hnodup, hkeys]
    · refine ⟨query.started.getD now, ?_, ?_⟩
      · rw [Query.polled_started]
        cases query.started <;> rfl
      · rw [Query.polled_started] at htime
        cases hs : query.started <;> simp_all
  · -- the loop went through every query
    have hlen : (pollLoop pool.queryTimeout now pool.queries).1 = [] ↔ pool.queries = [] := by
      rw [← List.map_eq_nil_iff (f := Prod.fst), hkeys, List.map_eq_nil_iff]
    split_ifs with hempty
    · have hnil := List.isEmpty_iff.1 hempty
      exact ⟨_, _, rfl, hpolled, hlen.1 hnil, hnil⟩
    · have hne : (pollLoop pool.queryTimeout now pool.queries).1 ≠ [] := fun hnil =>
        hempty (List.isEmpty_iff.2 hnil)
      exact ⟨_, _, rfl, hpolled, fun hnil => hne (hlen.2 hnil), hkeys⟩

/-! ## Runs -/

variable (keyOf)

theorem PoolInv.addFindnodeQuery {pool : QueryPool TTarget TNodeId TResult} (h : PoolInv keyOf pool)
    (config : QueryConfig) (target : TTarget) (peers : List TNodeId) :
    PoolInv keyOf (pool.addFindnodeQuery keyOf key config target peers).1 := by
  refine h.add ?_ target
  exact FindNodeQuery.Inv.withConfigOf keyOf _ config (key target) _

theorem PoolInv.addPredicateQuery {pool : QueryPool TTarget TNodeId TResult} (h : PoolInv keyOf pool)
    (config : QueryConfig) (target : TTarget) (peers : List (PredicateKey TNodeId)) (predicate : TResult → Bool) :
    PoolInv keyOf (pool.addPredicateQuery keyOf key config target peers predicate).1 := by
  refine h.add ?_ target
  exact FindNodeQuery.Inv.withConfigOf keyOf _ config (key target) _

/-- Every call keeps the invariant. -/
theorem PoolInv.apply {pool pool' : QueryPool TTarget TNodeId TResult} (h : PoolInv keyOf pool)
    {call : PoolCall TTarget TNodeId TResult} {out : PoolOutput TTarget TNodeId TResult}
    (hs : pool.apply keyOf key intoNodeId call = some (pool', out)) : PoolInv keyOf pool' := by
  cases call with
  | addFindnodeQuery config target peers =>
    cases hs
    exact h.addFindnodeQuery keyOf key config target peers
  | addPredicateQuery config target peers predicate =>
    cases hs
    exact h.addPredicateQuery keyOf key config target peers predicate
  | poll now =>
    obtain ⟨pool'', state, hpoll, hinv, -⟩ := h.poll now
    simp only [QueryPool.apply, hpoll, Option.map_some, Option.some.injEq, Prod.mk.injEq] at hs
    rw [← hs.1]
    exact hinv
  | onSuccess queryId peer newPeers =>
    cases hs
    exact h.getMut queryId (fun query => Query.onSuccess_id keyOf intoNodeId query peer newPeers)
      fun query hq => Query.inv_onSuccess intoNodeId hq peer newPeers
  | onFailure queryId peer =>
    cases hs
    exact h.getMut queryId (fun query => Query.onFailure_id keyOf query peer)
      fun query hq => Query.inv_onFailure hq peer
  | updateTarget queryId update =>
    cases hs
    exact h.getMut queryId (fun _ => rfl) fun _ hq => hq

/-- Every pool reachable from one whose invariant holds keeps it. -/
theorem PoolInv.reachable {pool₀ pool : QueryPool TTarget TNodeId TResult}
    {outs : List (PoolOutput TTarget TNodeId TResult)} (h₀ : PoolInv keyOf pool₀)
    (hr : Reachable keyOf key intoNodeId pool₀ pool outs) : PoolInv keyOf pool := by
  induction hr with
  | init => exact h₀
  | step _ call hs ih => exact ih.apply keyOf key intoNodeId hs
  | reorder _ queries hperm ih => exact ih.withQueries queries hperm

/-! ## No query lost or handed back twice -/

namespace PoolOutput

/-- The id a call gave a new query. -/
def added? : PoolOutput TTarget TNodeId TResult → Option QueryId
  | .added queryId => some queryId
  | _ => none

/-- The id of a query handed back out of the pool. -/
def returned? : PoolOutput TTarget TNodeId TResult → Option QueryId
  | .polled (.finished query) | .polled (.timeout query) => some query.id
  | _ => none

end PoolOutput

/-- The ids of the queries added, in order. -/
def addedIds (outs : List (PoolOutput TTarget TNodeId TResult)) : List QueryId :=
  outs.filterMap PoolOutput.added?

/-- The ids of the queries handed back as finished or timed out, in order. -/
def returnedIds (outs : List (PoolOutput TTarget TNodeId TResult)) : List QueryId :=
  outs.filterMap PoolOutput.returned?

@[simp] theorem addedIds_append (outs : List (PoolOutput TTarget TNodeId TResult)) (out : PoolOutput TTarget TNodeId TResult) :
    addedIds (outs ++ [out]) = addedIds outs ++ out.added?.toList := by
  cases h : out.added? <;> simp [addedIds, List.filterMap_append, h]

@[simp] theorem returnedIds_append (outs : List (PoolOutput TTarget TNodeId TResult)) (out : PoolOutput TTarget TNodeId TResult) :
    returnedIds (outs ++ [out]) = returnedIds outs ++ out.returned?.toList := by
  cases h : out.returned? <;> simp [returnedIds, List.filterMap_append, h]

/-- The ids the pool gave out, against the queries it holds and those it
handed back: every id given out once, below the number of adds, and either
live or handed back; `next_id` is the number of adds, wrapped. -/
structure Ledger (pool : QueryPool TTarget TNodeId TResult) (outs : List (PoolOutput TTarget TNodeId TResult)) :
    Prop where
  nodup_added : (addedIds outs).Nodup
  perm : (addedIds outs).Perm (pool.queries.map Prod.fst ++ returnedIds outs)
  below : ∀ queryId ∈ addedIds outs, queryId.val.toNat < (addedIds outs).length
  nextId : pool.nextId.toNat = (addedIds outs).length % 2 ^ 64

theorem Ledger.new (queryTimeout : Nat) : Ledger (new queryTimeout : QueryPool TTarget TNodeId TResult) [] :=
  ⟨List.nodup_nil, by simp [QueryPool.new, returnedIds, addedIds], by simp [addedIds], rfl⟩

/-- Below `2^64` adds, `next_id` is an id never given out, so `add` files
the new query beside the others. -/
theorem Ledger.add {pool : QueryPool TTarget TNodeId TResult} {outs : List (PoolOutput TTarget TNodeId TResult)}
    (h : Ledger pool outs) (hlen : (addedIds outs).length < 2 ^ 64)
    (peerIter : QueryPeerIter TNodeId TResult) (target : TTarget) :
    Ledger (pool.add peerIter target).1 (outs ++ [.added (pool.add peerIter target).2]) := by
  have hid : pool.nextId.toNat = (addedIds outs).length := by
    rw [h.nextId, Nat.mod_eq_of_lt hlen]
  -- the new id is fresh: every id given out is below the number of adds
  have hfresh : (⟨pool.nextId⟩ : QueryId) ∉ addedIds outs := fun hmem =>
    absurd (h.below _ hmem) (by simp [hid])
  have hlive : (⟨pool.nextId⟩ : QueryId) ∉ pool.queries.map Prod.fst := fun hmem =>
    hfresh (h.perm.mem_iff.2 (List.mem_append_left _ hmem))
  have hkeys : (pool.add peerIter target).1.queries.map Prod.fst = pool.queries.map Prod.fst ++ [⟨pool.nextId⟩] := by
    simp [QueryPool.add, ListMap.insert, ListMap.erase_of_not_mem_keys hlive]
  have hadded : addedIds (outs ++ [PoolOutput.added (pool.add peerIter target).2]) =
      addedIds outs ++ [⟨pool.nextId⟩] := by
    simp [PoolOutput.added?, QueryPool.add]
  have hreturned : returnedIds (outs ++ [PoolOutput.added (pool.add peerIter target).2]) = returnedIds outs := by
    simp [PoolOutput.returned?]
  refine ⟨?_, ?_, ?_, ?_⟩
  · rw [hadded]
    refine List.nodup_append.2 ⟨h.nodup_added, List.nodup_singleton _, fun a ha b hb hab => hfresh ?_⟩
    rw [List.mem_singleton] at hb
    rw [hab, hb] at ha
    exact ha
  · rw [hadded, hreturned, hkeys, List.append_assoc]
    exact (h.perm.append_right _).trans (by rw [List.append_assoc]; exact List.perm_append_comm.append_left _)
  · rw [hadded, List.length_append, List.length_singleton]
    intro queryId hmem
    rcases List.mem_append.1 hmem with hmem | hmem
    · exact Nat.lt_succ_of_lt (h.below _ hmem)
    · rw [List.mem_singleton.1 hmem, ← hid]
      exact Nat.lt_succ_self _
  · rw [hadded, List.length_append, List.length_singleton, ← Nat.mod_add_mod, ← h.nextId]
    show (pool.nextId + 1).toNat = _
    rw [UInt64.toNat_add, UInt64.toNat_one]

/-- A step that gives out no id and moves ids only between the live and
the handed-back ones keeps the ledger. -/
theorem Ledger.of_perm {pool pool' : QueryPool TTarget TNodeId TResult}
    {outs outs' : List (PoolOutput TTarget TNodeId TResult)} (h : Ledger pool outs)
    (hadded : addedIds outs' = addedIds outs) (hnext : pool'.nextId = pool.nextId)
    (hperm : (pool.queries.map Prod.fst ++ returnedIds outs).Perm (pool'.queries.map Prod.fst ++ returnedIds outs')) :
    Ledger pool' outs' := by
  refine ⟨?_, ?_, ?_, ?_⟩
  · rw [hadded]
    exact h.nodup_added
  · rw [hadded]
    exact h.perm.trans hperm
  · rw [hadded]
    exact h.below
  · rw [hadded, hnext]
    exact h.nextId

variable {keyOf} in
/-- `poll` moves the query it hands back from the live ids to the handed-back ones. -/
theorem Ledger.poll {pool pool' : QueryPool TTarget TNodeId TResult} {outs : List (PoolOutput TTarget TNodeId TResult)}
    (hinv : PoolInv keyOf pool) (h : Ledger pool outs) {now : Instant} {state : QueryPoolState TTarget TNodeId TResult}
    (hpoll : pool.poll now = some (pool', state)) : Ledger pool' (outs ++ [.polled state]) := by
  obtain ⟨pool'', state'', hpoll'', -, hres⟩ := hinv.poll now
  rw [hpoll] at hpoll''
  cases hpoll''
  refine h.of_perm (by simp [PoolOutput.added?]) (poll_nextId hpoll) ?_
  -- a query handed back: its id leaves the live ids for the handed-back ones
  have hmove : ∀ queryId ∈ pool.queries.map Prod.fst,
      pool'.queries.map Prod.fst = (pool.queries.map Prod.fst).erase queryId →
      (pool.queries.map Prod.fst ++ returnedIds outs).Perm
        (pool'.queries.map Prod.fst ++ (returnedIds outs ++ [queryId])) := by
    intro queryId hmem hkeys
    rw [hkeys, ← List.append_assoc]
    exact ((List.perm_cons_erase hmem).append_right _).trans (List.perm_append_singleton _ _).symm
  cases state with
  | idle => simp [PoolOutput.returned?, hres.1, hres.2]
  | waiting next =>
    rcases next with _ | ⟨queryId, returnPeer⟩
    · simp [PoolOutput.returned?, hres.2]
    · simp [PoolOutput.returned?, hres.2]
  | finished query => simpa [PoolOutput.returned?] using hmove _ hres.1 hres.2.1
  | timeout query => simpa [PoolOutput.returned?] using hmove _ hres.1 hres.2.1

theorem Ledger.getMut {pool : QueryPool TTarget TNodeId TResult} {outs : List (PoolOutput TTarget TNodeId TResult)}
    (h : Ledger pool outs) (queryId : QueryId)
    (update : Query TTarget TNodeId TResult → Query TTarget TNodeId TResult) :
    Ledger (pool.getMut queryId update) (outs ++ [.updated]) :=
  h.of_perm (by simp [PoolOutput.added?]) rfl (by simp [QueryPool.getMut, PoolOutput.returned?])

theorem Ledger.withQueries {pool : QueryPool TTarget TNodeId TResult} {outs : List (PoolOutput TTarget TNodeId TResult)}
    (h : Ledger pool outs) (queries : List (QueryId × Query TTarget TNodeId TResult)) (hperm : queries.Perm pool.queries) :
    Ledger (pool.withQueries queries hperm) outs :=
  h.of_perm rfl rfl ((hperm.map Prod.fst).symm.append_right _)

/-- Every call keeps the ledger, as long as at most `2^64` ids were given out. -/
theorem Ledger.apply {pool pool' : QueryPool TTarget TNodeId TResult} {outs : List (PoolOutput TTarget TNodeId TResult)}
    (hinv : PoolInv keyOf pool) (h : Ledger pool outs) {call : PoolCall TTarget TNodeId TResult}
    {out : PoolOutput TTarget TNodeId TResult} (hs : pool.apply keyOf key intoNodeId call = some (pool', out))
    (hlen : (addedIds (outs ++ [out])).length ≤ 2 ^ 64) : Ledger pool' (outs ++ [out]) := by
  cases call with
  | addFindnodeQuery config target peers =>
    cases hs
    exact h.add (by simpa [PoolOutput.added?] using hlen) _ target
  | addPredicateQuery config target peers predicate =>
    cases hs
    exact h.add (by simpa [PoolOutput.added?] using hlen) _ target
  | poll now =>
    cases hpoll : pool.poll now with
    | none => simp [QueryPool.apply, hpoll] at hs
    | some r =>
      simp only [QueryPool.apply, hpoll, Option.map_some, Option.some.injEq, Prod.mk.injEq] at hs
      obtain ⟨rfl, rfl⟩ := hs
      exact h.poll hinv hpoll
  | onSuccess queryId peer newPeers =>
    cases hs
    exact h.getMut queryId _
  | onFailure queryId peer =>
    cases hs
    exact h.getMut queryId _
  | updateTarget queryId update =>
    cases hs
    exact h.getMut queryId _

/-- Every pool reachable from `QueryPool::new` by at most `2^64` adds keeps the ledger. -/
theorem Ledger.reachable (queryTimeout : Nat) {pool : QueryPool TTarget TNodeId TResult}
    {outs : List (PoolOutput TTarget TNodeId TResult)}
    (hr : Reachable keyOf key intoNodeId (QueryPool.new queryTimeout) pool outs)
    (hlen : (addedIds outs).length ≤ 2 ^ 64) : Ledger pool outs := by
  induction hr with
  | init => exact Ledger.new queryTimeout
  | @step pool pool' outs out hr call hs ih =>
    have hprefix : (addedIds outs).length ≤ 2 ^ 64 :=
      Nat.le_trans (by simp) hlen
    exact (ih hprefix).apply keyOf key intoNodeId
      ((PoolInv.new keyOf queryTimeout).reachable keyOf key intoNodeId hr) hs hlen
  | reorder hr queries hperm ih => exact (ih hlen).withQueries queries hperm

/-! ## The pool's contract -/

section Contract

/-- In every pool reachable from `QueryPool::new`, by any calls and in any
order of iteration, `poll` never panics and hands back what `PollResult`
says: `Idle` only for an empty pool, a finished query with a finished
result, a timed-out one once `query_timeout` has passed since it was first
polled, and every other query left in the pool. -/
theorem query_pool_poll_contract (queryTimeout : Nat) {pool : QueryPool TTarget TNodeId TResult}
    {outs : List (PoolOutput TTarget TNodeId TResult)}
    (hr : Reachable keyOf key intoNodeId (QueryPool.new queryTimeout) pool outs) (now : Instant) :
    ∃ pool' state, pool.poll now = some (pool', state) ∧ PollResult keyOf pool pool' now state := by
  obtain ⟨pool', state, hpoll, -, hres⟩ :=
    ((PoolInv.new keyOf queryTimeout).reachable keyOf key intoNodeId hr).poll now
  exact ⟨pool', state, hpoll, hres⟩

/-- In every reachable pool, each live query is filed under its own id and
has the guarantees of its kind of query. -/
theorem query_pool_live_queries (queryTimeout : Nat) {pool : QueryPool TTarget TNodeId TResult}
    {outs : List (PoolOutput TTarget TNodeId TResult)}
    (hr : Reachable keyOf key intoNodeId (QueryPool.new queryTimeout) pool outs) :
    ∀ e ∈ pool.queries, e.2.id = e.1 ∧ e.2.peerIter.Guarantees keyOf := by
  have h := (PoolInv.new keyOf queryTimeout).reachable keyOf key intoNodeId hr
  intro e he
  exact ⟨h.keyed e he, QueryPeerIter.guarantees_of_inv (h.iter_inv e he)⟩

/-- No query is lost or handed back twice: as long as at most `2^64`
queries were added, the ids given out are distinct, the queries handed
back as finished or timed out are distinct, and the ids given out are
exactly the live ones and the handed-back ones. -/
theorem query_pool_no_lost_query (queryTimeout : Nat) {pool : QueryPool TTarget TNodeId TResult}
    {outs : List (PoolOutput TTarget TNodeId TResult)}
    (hr : Reachable keyOf key intoNodeId (QueryPool.new queryTimeout) pool outs)
    (hlen : (addedIds outs).length ≤ 2 ^ 64) :
    (addedIds outs).Nodup ∧ (returnedIds outs).Nodup ∧
      (addedIds outs).Perm (pool.queries.map Prod.fst ++ returnedIds outs) := by
  have h := Ledger.reachable keyOf key intoNodeId queryTimeout hr hlen
  have hnodup : (pool.queries.map Prod.fst ++ returnedIds outs).Nodup := h.perm.nodup_iff.1 h.nodup_added
  exact ⟨h.nodup_added, (List.nodup_append.1 hnodup).2.1, h.perm⟩

end Contract

/-- A run of lookups of the zero id, with query timeout 10 and one request
at a time: lookup 0 asks its closest peer and times out at 10, lookup 1 has
no peers and finishes, and lookup 2, told that its first peer failed, waits
on its second. -/
def lookupRun : List (PoolCall NodeId NodeId NodeId) :=
  let zero : NodeId := ⟨Rust.Arr.replicate 32 0⟩
  let peers : List NodeId := [⟨Rust.Arr.replicate 32 1⟩, ⟨Rust.Arr.replicate 32 2⟩]
  [.addFindnodeQuery ⟨1, 16, 100⟩ zero peers, .poll 0, .addFindnodeQuery ⟨1, 16, 100⟩ zero [], .poll 1,
    .poll 10, .addFindnodeQuery ⟨1, 16, 100⟩ zero peers, .poll 11, .onFailure ⟨2⟩ ⟨Rust.Arr.replicate 32 1⟩,
    .poll 12]

/-- The run hands back lookups 1 and 0 and leaves lookup 2 live, which a
poll at 22 hands back as timed out. -/
theorem lookupRun_outcome :
    ∃ pool outs, runCalls id id id (QueryPool.new 10) [] lookupRun = some (pool, outs) ∧
      Reachable id id id (QueryPool.new 10) pool outs ∧ pool.queries.map Prod.fst = [⟨2⟩] ∧
      addedIds outs = [⟨0⟩, ⟨1⟩, ⟨2⟩] ∧ returnedIds outs = [⟨1⟩, ⟨0⟩] ∧
      (pool.poll 22).map (fun r => (PoolOutput.polled r.2).returned?) = some (some ⟨2⟩) := by
  have hval : (runCalls id id id (QueryPool.new 10) [] lookupRun).map
      (fun r => (r.1.queries.map Prod.fst, addedIds r.2, returnedIds r.2,
        (r.1.poll 22).map fun r => (PoolOutput.polled r.2).returned?)) =
      some ([⟨2⟩], [⟨0⟩, ⟨1⟩, ⟨2⟩], [⟨1⟩, ⟨0⟩], some (some ⟨2⟩)) := by decide
  cases hrun : runCalls id id id (QueryPool.new 10) [] lookupRun with
  | none =>
    rw [hrun] at hval
    cases hval
  | some r =>
    rw [hrun] at hval
    simp only [Option.map_some, Option.some.injEq, Prod.mk.injEq] at hval
    exact ⟨r.1, r.2, rfl, Reachable.init.runCalls id id id hrun, hval.1, hval.2.1, hval.2.2.1, hval.2.2.2⟩

theorem query_pool_poll_contract_lookupRun :
    ∃ pool outs, runCalls id id id (QueryPool.new 10) [] lookupRun = some (pool, outs) ∧
      Reachable id id id (QueryPool.new 10) pool outs ∧ pool.queries.map Prod.fst = [⟨2⟩] ∧
      ∃ pool' state, pool.poll 22 = some (pool', state) ∧ PollResult id pool pool' 22 state ∧
        (PoolOutput.polled state).returned? = some ⟨2⟩ := by
  obtain ⟨pool, outs, hrun, hr, hlive, -, -, htimeout⟩ := lookupRun_outcome
  obtain ⟨pool', state, hpoll, hres⟩ := query_pool_poll_contract id id id 10 hr 22
  rw [hpoll, Option.map_some, Option.some.injEq] at htimeout
  exact ⟨pool, outs, hrun, hr, hlive, pool', state, hpoll, hres, htimeout⟩

theorem query_pool_live_queries_lookupRun :
    ∃ pool outs, runCalls id id id (QueryPool.new 10) [] lookupRun = some (pool, outs) ∧
      Reachable id id id (QueryPool.new 10) pool outs ∧ pool.queries.map Prod.fst = [⟨2⟩] ∧
      ∀ e ∈ pool.queries, e.2.id = e.1 ∧ e.2.peerIter.Guarantees id := by
  obtain ⟨pool, outs, hrun, hr, hlive, -⟩ := lookupRun_outcome
  exact ⟨pool, outs, hrun, hr, hlive, query_pool_live_queries id id id 10 hr⟩

theorem query_pool_no_lost_query_lookupRun :
    ∃ pool outs, runCalls id id id (QueryPool.new 10) [] lookupRun = some (pool, outs) ∧
      Reachable id id id (QueryPool.new 10) pool outs ∧ (addedIds outs).length ≤ 2 ^ 64 ∧
      returnedIds outs = [⟨1⟩, ⟨0⟩] ∧ (addedIds outs).Nodup ∧ (returnedIds outs).Nodup ∧
      (addedIds outs).Perm (pool.queries.map Prod.fst ++ returnedIds outs) := by
  obtain ⟨pool, outs, hrun, hr, -, hadded, hret, -⟩ := lookupRun_outcome
  have hlen : (addedIds outs).length ≤ 2 ^ 64 := by
    rw [hadded]
    decide
  exact ⟨pool, outs, hrun, hr, hlen, hret, query_pool_no_lost_query id id id 10 hr hlen⟩

end QueryPool

end Discv5.QueryPool
