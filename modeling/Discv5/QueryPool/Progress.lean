import Discv5.QueryPool.Refinement

/-!
# What counts as progress in `on_success`

The documentation of `on_success` says that a call makes progress when the
reported peers hold a peer closer to the target than every peer seen so far,
or, while the query holds fewer than `num_results` peers, a new peer at all
(`documentedProgress`). The loop of `on_success` assigns its flag at every
reported peer instead of accumulating it, so the flag is the test of the
last reported peer alone, made on the map after every peer has been added
(`foldl_insertCloserPeer_snd`, `onSuccessWith_progress`); the test never
asks whether that peer is new either. The two disagree as soon as a new
closest peer is followed by a peer the query already holds, and the outcome
of one call depends on the order of the reported peers.

Both queries run the same loop (`onSuccessWith`), so the facts about it
hold for `FindNodeQuery` and `PredicateQuery` alike.
-/

namespace Discv5.QueryPool

open Kbucket

namespace FindNodeQuery

variable {TNodeId : Type} (keyOf : TNodeId → NodeId)

/-- The condition the documentation of `on_success` gives for progress: some
reported peer is not yet in the query, and it is closer to the target than
every peer in the query, or the query holds fewer than `num_results` peers. -/
def documentedProgress (q : FindNodeQuery TNodeId) (closerPeers : List TNodeId) : Prop :=
  ∃ peer ∈ closerPeers, distance (keyOf q.targetKey) (keyOf peer) ∉ q.closestPeers.keys ∧
    ((∀ d ∈ q.closestPeers.keys, distance (keyOf q.targetKey) (keyOf peer) < d) ∨
      q.closestPeers.length < q.config.numResults)

instance (q : FindNodeQuery TNodeId) (closerPeers : List TNodeId) :
    Decidable (documentedProgress keyOf q closerPeers) := by
  unfold documentedProgress
  infer_instance

@[simp] theorem incorporate_progress (q : FindNodeQuery TNodeId) (closerPeers : List (TNodeId × Bool)) :
    (q.incorporate keyOf closerPeers).progress =
      updateProgress q.config.parallelism
        (closerPeers.foldl (insertCloserPeer keyOf q.targetKey q.closestPeers.length q.config.numResults)
          (q.closestPeers, false)).2 q.progress := rfl

@[simp] theorem incorporate_closestPeers (q : FindNodeQuery TNodeId) (closerPeers : List (TNodeId × Bool)) :
    (q.incorporate keyOf closerPeers).closestPeers =
      (closerPeers.foldl (insertCloserPeer keyOf q.targetKey q.closestPeers.length q.config.numResults)
        (q.closestPeers, false)).1 := rfl

/-! ## The loop over the reported peers -/

section Loop

variable (targetKey : TNodeId) (numClosest numResults : Nat)

/-- A reported peer at a distance the map holds leaves the map as it is; the
flag is still set from the first key. -/
theorem insertCloserPeer_of_mem_keys {acc : SortedMap Distance (QueryPeer TNodeId) × Bool}
    {peer : TNodeId × Bool} (h : distance (keyOf targetKey) (keyOf peer.1) ∈ acc.1.keys) :
    insertCloserPeer keyOf targetKey numClosest numResults acc peer =
      (acc.1, acc.1.firstKey? = some (distance (keyOf targetKey) (keyOf peer.1)) ||
        decide (numClosest < numResults)) := by
  simp only [insertCloserPeer, SortedMap.orInsert_of_mem_keys h]

/-- A reported peer closer than every peer of the map becomes its first key,
and sets the flag. -/
theorem insertCloserPeer_of_lt {acc : SortedMap Distance (QueryPeer TNodeId) × Bool}
    {peer : TNodeId × Bool} (h : ∀ d ∈ acc.1.keys, distance (keyOf targetKey) (keyOf peer.1) < d) :
    (insertCloserPeer keyOf targetKey numClosest numResults acc peer).1.firstKey? =
        some (distance (keyOf targetKey) (keyOf peer.1)) ∧
      (insertCloserPeer keyOf targetKey numClosest numResults acc peer).2 = true := by
  have hfirst := SortedMap.firstKey?_orInsert_of_lt h (QueryPeer.new peer.1 .notContacted peer.2)
  exact ⟨hfirst, by simp [insertCloserPeer, hfirst]⟩

/-- The map only gains keys. -/
theorem mem_keys_insertCloserPeer {acc : SortedMap Distance (QueryPeer TNodeId) × Bool}
    (peer : TNodeId × Bool) {d : Distance} (h : d ∈ acc.1.keys) :
    d ∈ (insertCloserPeer keyOf targetKey numClosest numResults acc peer).1.keys :=
  SortedMap.mem_keys_orInsert.2 (.inr h)

/-- The flag the loop leaves is the test of the last reported peer, made on
the map the loop leaves. -/
theorem foldl_insertCloserPeer_snd (acc : SortedMap Distance (QueryPeer TNodeId) × Bool)
    (closerPeers : List (TNodeId × Bool)) (peer : TNodeId × Bool) :
    ((closerPeers ++ [peer]).foldl (insertCloserPeer keyOf targetKey numClosest numResults) acc).2 =
      (((closerPeers ++ [peer]).foldl (insertCloserPeer keyOf targetKey numClosest numResults) acc).1.firstKey? =
          some (distance (keyOf targetKey) (keyOf peer.1)) || decide (numClosest < numResults)) := by
  rw [List.foldl_append]
  rfl

/-- A new closest peer followed by a known one: the known peer's test is the
flag, and it fails on the first key. -/
theorem foldl_closest_then_known {acc : SortedMap Distance (QueryPeer TNodeId) × Bool}
    {a b : TNodeId × Bool} (ha : ∀ d ∈ acc.1.keys, distance (keyOf targetKey) (keyOf a.1) < d)
    (hb : distance (keyOf targetKey) (keyOf b.1) ∈ acc.1.keys) :
    ([a, b].foldl (insertCloserPeer keyOf targetKey numClosest numResults) acc).2 =
      decide (numClosest < numResults) := by
  obtain ⟨hfirst, -⟩ := insertCloserPeer_of_lt keyOf targetKey numClosest numResults ha
  have hne : distance (keyOf targetKey) (keyOf a.1) ≠ distance (keyOf targetKey) (keyOf b.1) :=
    ne_of_lt (ha _ hb)
  simp only [List.foldl_cons, List.foldl_nil]
  rw [insertCloserPeer_of_mem_keys keyOf targetKey numClosest numResults
    (mem_keys_insertCloserPeer keyOf targetKey numClosest numResults a hb), hfirst]
  simp [hne]

/-- A known peer followed by a new closest one: the closest peer's test is the
flag, and it holds. -/
theorem foldl_known_then_closest {acc : SortedMap Distance (QueryPeer TNodeId) × Bool}
    {a b : TNodeId × Bool} (ha : ∀ d ∈ acc.1.keys, distance (keyOf targetKey) (keyOf a.1) < d)
    (hb : distance (keyOf targetKey) (keyOf b.1) ∈ acc.1.keys) :
    ([b, a].foldl (insertCloserPeer keyOf targetKey numClosest numResults) acc).2 = true := by
  simp only [List.foldl_cons, List.foldl_nil]
  rw [insertCloserPeer_of_mem_keys keyOf targetKey numClosest numResults hb]
  exact (insertCloserPeer_of_lt keyOf targetKey numClosest numResults ha).2

end Loop

/-! ## `on_success` on a peer it waits for -/

section Answered

variable {q : FindNodeQuery TNodeId} {nodeId : TNodeId} {peer : QueryPeer TNodeId}

/-- `on_success` for a peer waited for or timed out: the peer is marked
succeeded and the reported peers are incorporated. -/
theorem onSuccessWith_of_answered (hq : q.progress ≠ .finished)
    (hfind : q.closestPeers.find? (distance (keyOf nodeId) (keyOf q.targetKey)) = some peer)
    (hstate : (∃ t, peer.state = .waiting t) ∨ peer.state = .unresponsive)
    (closerPeers : List (TNodeId × Bool)) :
    ∃ numWaiting, q.onSuccessWith keyOf nodeId closerPeers =
      incorporate keyOf
        { q with
          numWaiting
          closestPeers := q.closestPeers.set (distance (keyOf nodeId) (keyOf q.targetKey))
            { peer with peersReturned := peer.peersReturned + closerPeers.length, state := .succeeded } }
        closerPeers := by
  unfold onSuccessWith
  rw [if_neg hq]
  dsimp only
  rw [hfind]
  dsimp only
  rcases hstate with ⟨t, ht⟩ | hu
  · rw [ht]
    exact ⟨_, rfl⟩
  · rw [hu]
    exact ⟨_, rfl⟩

variable (hq : q.progress ≠ .finished)
  (hfind : q.closestPeers.find? (distance (keyOf nodeId) (keyOf q.targetKey)) = some peer)
  (hstate : (∃ t, peer.state = .waiting t) ∨ peer.state = .unresponsive)
include hq hfind hstate

/-- What `on_success` counts as progress: the test of the last reported peer,
whether it is the first key of the map at the end, or whether the query held
fewer than `num_results` peers. -/
theorem onSuccessWith_progress (closerPeers : List (TNodeId × Bool)) (last : TNodeId × Bool) :
    (q.onSuccessWith keyOf nodeId (closerPeers ++ [last])).progress =
      updateProgress q.config.parallelism
        ((q.onSuccessWith keyOf nodeId (closerPeers ++ [last])).closestPeers.firstKey? =
            some (distance (keyOf q.targetKey) (keyOf last.1)) ||
          decide (q.closestPeers.length < q.config.numResults)) q.progress := by
  obtain ⟨numWaiting, h⟩ := onSuccessWith_of_answered keyOf hq hfind hstate (closerPeers ++ [last])
  rw [h, incorporate_progress, incorporate_closestPeers, foldl_insertCloserPeer_snd]
  simp only [SortedMap.length_set]

/-- A new peer closer than every peer of the query, followed by a peer the
query already holds, makes the documented progress but does not count once
the query holds `num_results` peers; reported the other way round, the same
two peers count. -/
theorem closer_peer_progress_overwritten {a b : TNodeId}
    (hcloser : ∀ d ∈ q.closestPeers.keys, distance (keyOf q.targetKey) (keyOf a) < d)
    (hknown : distance (keyOf q.targetKey) (keyOf b) ∈ q.closestPeers.keys)
    (hfull : q.config.numResults ≤ q.closestPeers.length) :
    documentedProgress keyOf q [a, b] ∧ documentedProgress keyOf q [b, a] ∧
      (q.onSuccess keyOf nodeId [a, b]).progress = updateProgress q.config.parallelism false q.progress ∧
      (q.onSuccess keyOf nodeId [b, a]).progress = updateProgress q.config.parallelism true q.progress := by
  have hnew : distance (keyOf q.targetKey) (keyOf a) ∉ q.closestPeers.keys :=
    fun h => lt_irrefl _ (hcloser _ h)
  have hdoc : ∀ l, a ∈ l → documentedProgress keyOf q l := fun l ha => ⟨a, ha, hnew, .inl hcloser⟩
  refine ⟨hdoc _ (by simp), hdoc _ (by simp), ?_, ?_⟩
  · obtain ⟨numWaiting, h⟩ := onSuccessWith_of_answered keyOf hq hfind hstate [(a, true), (b, true)]
    rw [onSuccess, List.map_cons, List.map_cons, List.map_nil, h, incorporate_progress,
      foldl_closest_then_known keyOf _ _ _ (by simpa using hcloser) (by simpa using hknown)]
    simp [Nat.not_lt.2 hfull]
  · obtain ⟨numWaiting, h⟩ := onSuccessWith_of_answered keyOf hq hfind hstate [(b, true), (a, true)]
    rw [onSuccess, List.map_cons, List.map_cons, List.map_nil, h, incorporate_progress,
      foldl_known_then_closest keyOf _ _ _ (by simpa using hcloser) (by simpa using hknown)]

end Answered

/-- Around the target `0x00..02`, with `num_results` 2, the query that knows
`0x00..00` and `0x00..01` and has contacted `0x00..00` (at distance 2) by
`next(0)`. -/
def progressQuery : FindNodeQuery NodeId :=
  ((withConfig id ⟨3, 2, 10⟩ twoNodeId [KBucketsTable.zeroNodeId, KBucketsTable.oneNodeId]).next 0).1

/-- `0x00..00` answers with the target itself and then `0x00..01`: the
documented progress is made, yet the call counts one result without
progress; the other order resets the count. -/
theorem closer_peer_progress_overwritten_progressQuery :
    documentedProgress id progressQuery [twoNodeId, KBucketsTable.oneNodeId] ∧
      (progressQuery.onSuccess id KBucketsTable.zeroNodeId [twoNodeId, KBucketsTable.oneNodeId]).progress =
        .iterating 1 ∧
      (progressQuery.onSuccess id KBucketsTable.zeroNodeId [KBucketsTable.oneNodeId, twoNodeId]).progress =
        .iterating 0 := by
  have hfind : progressQuery.closestPeers.find? (distance (id KBucketsTable.zeroNodeId) (id progressQuery.targetKey)) =
      some ⟨KBucketsTable.zeroNodeId, 0, true, .waiting 10⟩ := by
    decide
  obtain ⟨hdoc, -, h₁, h₂⟩ := closer_peer_progress_overwritten id (by decide) hfind (.inl ⟨10, rfl⟩)
    (a := twoNodeId) (b := KBucketsTable.oneNodeId) (by decide) (by decide) (by decide)
  refine ⟨hdoc, ?_, ?_⟩
  · rw [h₁]
    decide
  · rw [h₂]
    decide

end FindNodeQuery

end Discv5.QueryPool
