import Discv5.QueryPool.Predicate

/-!
# The query invariant and what a finished query returns

Both queries keep `num_waiting` by hand: `next` adds one when it contacts a
peer and takes one off when a peer times out, `on_success` and `on_failure`
take one off for a peer waited for. The invariant `Inv` says that the
counter is the number of peers in state `Waiting`, so none of these
decrements goes below zero, that it never exceeds
`max(parallelism, num_results)`, that every peer sits under its own
distance to the target, and that a finished query has a `Terminated`
result: no peer that counts is closer than the last one returned without
having answered, failed or timed out, and a short result means that nothing
is left to contact or to wait for.

`Inv` is stated for the shared record with the `eligible` peers of each
query; each operation keeps it (`Inv.withConfigOf`, `Inv.onSuccessWith`,
`Inv.onFailure`, `Inv.nextWith`), and so does every run of calls.
-/

namespace Discv5.QueryPool

open Kbucket

namespace QueryPeer

variable {TNodeId : Type}

/-- The peer counts towards the result: it succeeded and is eligible. -/
def counts (eligible : QueryPeer TNodeId → Bool) (peer : QueryPeer TNodeId) : Bool :=
  match peer.state with
  | .succeeded => eligible peer
  | _ => false

theorem counts_iff {eligible : QueryPeer TNodeId → Bool} {peer : QueryPeer TNodeId} :
    peer.counts eligible = true ↔ peer.state = .succeeded ∧ eligible peer = true := by
  unfold counts
  split <;> simp_all

end QueryPeer

namespace FindNodeQuery

variable {TNodeId : Type} (keyOf : TNodeId → NodeId) (eligible : QueryPeer TNodeId → Bool)

/-- The number of peers in state `Waiting` among some entries. -/
def waitingIn (l : List (Distance × QueryPeer TNodeId)) : Nat :=
  (l.map Prod.snd).countP fun peer => peer.state.isWaiting

/-- The distance of a node id's key to the target's. -/
def targetDistance (q : FindNodeQuery TNodeId) (nodeId : TNodeId) : Distance :=
  distance (keyOf nodeId) (keyOf q.targetKey)

/-- What the result of a finished query says about the peers it does not return. -/
structure Terminated (q : FindNodeQuery TNodeId) : Prop where
  closer_settled : ∀ last ∈ (q.intoResultWith eligible).getLast?, ∀ e ∈ q.closestPeers.entries,
    eligible e.2 = true → q.targetDistance keyOf e.2.key < q.targetDistance keyOf last →
      e.2.state.isSettled = true
  all_settled : (q.intoResultWith eligible).length < q.config.numResults →
    ∀ e ∈ q.closestPeers.entries, e.2.state.isSettled = true

/-- The invariant of a query whose `eligible` peers count. -/
structure Inv (q : FindNodeQuery TNodeId) : Prop where
  counted : q.numWaiting = waitingIn q.closestPeers.entries
  bounded : q.numWaiting ≤ max q.config.parallelism q.config.numResults
  keyed : ∀ e ∈ q.closestPeers.entries, e.1 = q.targetDistance keyOf e.2.key
  terminated : q.progress = .finished → Terminated keyOf eligible q

/-! ## The result -/

theorem intoResultWith_eq (q : FindNodeQuery TNodeId) :
    q.intoResultWith eligible =
      ((q.closestPeers.entries.filter fun e => e.2.counts eligible).map fun e => e.2.key).take
        q.config.numResults := by
  unfold intoResultWith SortedMap.values
  congr 1
  induction q.closestPeers.entries with
  | nil => rfl
  | cons e l ih =>
    obtain ⟨d, peer⟩ := e
    cases hs : peer.state <;> cases he : eligible peer <;>
      simp [QueryPeer.counts, hs, he, ih]

theorem intoResultWith_length_le (q : FindNodeQuery TNodeId) :
    (q.intoResultWith eligible).length ≤ q.config.numResults := by
  rw [intoResultWith_eq]
  exact List.length_take_le _ _

/-- Every returned node id is the key of a succeeded eligible peer. -/
theorem mem_intoResultWith {q : FindNodeQuery TNodeId} {r : TNodeId} (hr : r ∈ q.intoResultWith eligible) :
    ∃ e ∈ q.closestPeers.entries, e.2.key = r ∧ e.2.state = .succeeded ∧ eligible e.2 = true := by
  rw [intoResultWith_eq] at hr
  obtain ⟨e, he, rfl⟩ := List.mem_map.1 (List.mem_of_mem_take hr)
  obtain ⟨hmem, hcounts⟩ := List.mem_filter.1 he
  exact ⟨e, hmem, rfl, QueryPeer.counts_iff.1 hcounts⟩

/-- Under keyed entries, the result is in strictly increasing distance. -/
theorem intoResultWith_increasing {q : FindNodeQuery TNodeId}
    (hkeyed : ∀ e ∈ q.closestPeers.entries, e.1 = q.targetDistance keyOf e.2.key) :
    (q.intoResultWith eligible).Pairwise fun a b => q.targetDistance keyOf a < q.targetDistance keyOf b := by
  rw [intoResultWith_eq]
  refine List.Pairwise.sublist (List.take_sublist _ _) ?_
  rw [List.pairwise_map]
  refine (q.closestPeers.sorted.sublist List.filter_sublist).imp_of_mem fun {a b} ha hb hab => ?_
  rw [← hkeyed a (List.mem_of_mem_filter ha), ← hkeyed b (List.mem_of_mem_filter hb)]
  exact hab

/-! ## Writing one peer, and the peers `on_success` reports -/

/-- Writing a peer over the entry of its distance, with its key and a
counter moved by the change of waiting peers, keeps the invariant of a query
that has not finished. -/
theorem Inv.set {q : FindNodeQuery TNodeId} (h : Inv keyOf eligible q) (hq : q.progress ≠ .finished)
    {d : Distance} {peer : QueryPeer TNodeId} (hfind : q.closestPeers.find? d = some peer)
    (peer' : QueryPeer TNodeId) (hkey : peer'.key = peer.key) {numWaiting : Nat}
    (hle : numWaiting ≤ q.numWaiting)
    (hcount : numWaiting + (peer.state.isWaiting).toNat = q.numWaiting + (peer'.state.isWaiting).toNat) :
    Inv keyOf eligible { q with numWaiting, closestPeers := q.closestPeers.set d peer' } where
  counted := by
    show numWaiting = waitingIn (q.closestPeers.set d peer').entries
    have hset := SortedMap.countP_values_set (fun peer => peer.state.isWaiting) hfind peer'
    have hc := h.counted
    unfold waitingIn SortedMap.values at *
    omega
  bounded := Nat.le_trans hle h.bounded
  keyed := by
    intro e he
    show e.1 = q.targetDistance keyOf e.2.key
    rcases SortedMap.mem_set he with rfl | he
    · simpa [hkey] using h.keyed _ (SortedMap.find?_eq_some_iff.1 hfind)
    · exact h.keyed e he
  terminated := fun hfin => absurd hfin hq

theorem updateProgress_ne_finished (parallelism : Nat) (progress : Bool) {p : QueryProgress}
    (hp : p ≠ .finished) : updateProgress parallelism progress p ≠ .finished := by
  cases p with
  | iterating noProgress =>
    simp only [updateProgress]
    split_ifs <;> simp
  | stalled =>
    simp only [updateProgress]
    split_ifs <;> simp
  | finished => exact absurd rfl hp

/-- The loop of `on_success` adds only peers not yet contacted, each under
the target's distance to it. -/
theorem foldl_insertCloserPeer (targetKey : TNodeId) (numClosest numResults : Nat) :
    ∀ (closerPeers : List (TNodeId × Bool)) (acc : SortedMap Distance (QueryPeer TNodeId) × Bool),
      waitingIn (closerPeers.foldl (insertCloserPeer keyOf targetKey numClosest numResults) acc).1.entries =
          waitingIn acc.1.entries ∧
        ∀ e ∈ (closerPeers.foldl (insertCloserPeer keyOf targetKey numClosest numResults) acc).1.entries,
          e ∈ acc.1.entries ∨ ∃ peer ∈ closerPeers,
            e = (distance (keyOf targetKey) (keyOf peer.1), QueryPeer.new peer.1 .notContacted peer.2)
  | [], _ => ⟨rfl, fun _ he => .inl he⟩
  | peer :: closerPeers, acc => by
    obtain ⟨hcount, hmem⟩ := foldl_insertCloserPeer targetKey numClosest numResults closerPeers
      (insertCloserPeer keyOf targetKey numClosest numResults acc peer)
    refine ⟨?_, fun e he => ?_⟩
    · rw [List.foldl_cons, hcount]
      exact SortedMap.countP_values_orInsert _ _ rfl
    · rcases hmem e he with he | ⟨p, hp, rfl⟩
      · rcases SortedMap.mem_orInsert he with rfl | he
        · exact .inr ⟨peer, List.mem_cons_self, rfl⟩
        · exact .inl he
      · exact .inr ⟨p, List.mem_cons_of_mem _ hp, rfl⟩

theorem Inv.incorporate {q : FindNodeQuery TNodeId} (h : Inv keyOf eligible q) (hq : q.progress ≠ .finished)
    (closerPeers : List (TNodeId × Bool)) : Inv keyOf eligible (q.incorporate keyOf closerPeers) := by
  obtain ⟨hcount, hmem⟩ := foldl_insertCloserPeer keyOf q.targetKey q.closestPeers.length
    q.config.numResults closerPeers (q.closestPeers, false)
  refine ⟨?_, h.bounded, fun e he => ?_, fun hfin => ?_⟩
  · simpa [FindNodeQuery.incorporate, hcount] using h.counted
  · rcases hmem e he with he | ⟨p, _, rfl⟩
    · exact h.keyed e he
    · simp [targetDistance, FindNodeQuery.incorporate, QueryPeer.new, distance_comm]
  · exact absurd hfin (updateProgress_ne_finished _ _ hq)

theorem Inv.onSuccessWith {q : FindNodeQuery TNodeId} (h : Inv keyOf eligible q) (nodeId : TNodeId)
    (closerPeers : List (TNodeId × Bool)) : Inv keyOf eligible (q.onSuccessWith keyOf nodeId closerPeers) := by
  unfold FindNodeQuery.onSuccessWith
  split_ifs with hq
  · exact h
  dsimp only
  split
  · exact h
  · rename_i peer hfind
    split
    · -- a peer waited for: the counter loses it
      rename_i timeout hs
      refine Inv.incorporate keyOf eligible (h.set keyOf eligible hq hfind
        { peer with peersReturned := peer.peersReturned + closerPeers.length, state := .succeeded } rfl
        (Nat.sub_le _ _) ?_) hq _
      have hpos : 0 < q.numWaiting := by
        rw [h.counted]
        exact List.countP_pos_iff.2 ⟨peer, List.mem_map.2 ⟨_, SortedMap.find?_eq_some_iff.1 hfind, rfl⟩,
          by simp [hs, QueryPeerState.isWaiting]⟩
      simp [hs, QueryPeerState.isWaiting]
      omega
    · rename_i hs
      exact Inv.incorporate keyOf eligible (h.set keyOf eligible hq hfind
        { peer with peersReturned := peer.peersReturned + closerPeers.length, state := .succeeded } rfl
        (Nat.le_refl _) (by simp [hs, QueryPeerState.isWaiting])) hq _
    · exact h
    · exact h
    · exact h

/-- `FindNodeQuery::on_failure` keeps the invariant. -/
theorem Inv.onFailure {q : FindNodeQuery TNodeId} (h : Inv keyOf eligible q) (peer : TNodeId) :
    Inv keyOf eligible (q.onFailure keyOf peer) := by
  unfold FindNodeQuery.onFailure
  split_ifs with hq
  · exact h
  dsimp only
  split
  · exact h
  · rename_i p hfind
    split
    · rename_i timeout hs
      refine h.set keyOf eligible hq hfind { p with state := .failed } rfl (Nat.sub_le _ _) ?_
      have hpos : 0 < q.numWaiting := by
        rw [h.counted]
        exact List.countP_pos_iff.2 ⟨p, List.mem_map.2 ⟨_, SortedMap.find?_eq_some_iff.1 hfind, rfl⟩,
          by simp [hs, QueryPeerState.isWaiting]⟩
      simp [hs, QueryPeerState.isWaiting]
      omega
    · rename_i hs
      exact h.set keyOf eligible hq hfind { p with state := .failed } rfl (Nat.le_refl _)
        (by simp [hs, QueryPeerState.isWaiting])
    · exact h

/-! ## The scan of `next` -/

@[simp] theorem waitingIn_nil : waitingIn ([] : List (Distance × QueryPeer TNodeId)) = 0 := rfl

@[simp] theorem waitingIn_cons (e : Distance × QueryPeer TNodeId) (l : List (Distance × QueryPeer TNodeId)) :
    waitingIn (e :: l) = waitingIn l + (e.2.state.isWaiting).toNat := by
  cases h : e.2.state.isWaiting <;> simp [waitingIn, h]

@[simp] theorem NextLoop.cons_peers (e : Distance × QueryPeer TNodeId) (r : NextLoop TNodeId) :
    (r.cons e).peers = e :: r.peers := rfl

@[simp] theorem NextLoop.cons_numWaiting (e : Distance × QueryPeer TNodeId) (r : NextLoop TNodeId) :
    (r.cons e).numWaiting = r.numWaiting := rfl

@[simp] theorem NextLoop.cons_exit (e : Distance × QueryPeer TNodeId) (r : NextLoop TNodeId) :
    (r.cons e).exit = r.exit := rfl

section Scan

variable (config : QueryConfig) (atCapacity : Bool) (now : Instant)

/-- The counter moves with the waiting peers: each contact adds one, each
timeout takes one off. -/
theorem nextLoop_count (resultCounter : Option Nat) (numWaiting : Nat)
    (l : List (Distance × QueryPeer TNodeId)) (h : waitingIn l ≤ numWaiting) :
    (nextLoop eligible config atCapacity now resultCounter numWaiting l).numWaiting + waitingIn l =
      numWaiting + waitingIn (nextLoop eligible config atCapacity now resultCounter numWaiting l).peers := by
  fun_induction nextLoop eligible config atCapacity now resultCounter numWaiting l <;>
    simp_all [QueryPeerState.isWaiting] <;> omega

/-- The scan contacts at most one peer, and none at capacity. -/
theorem nextLoop_numWaiting_le (resultCounter : Option Nat) (numWaiting : Nat)
    (l : List (Distance × QueryPeer TNodeId)) :
    (nextLoop eligible config atCapacity now resultCounter numWaiting l).numWaiting ≤
      numWaiting + (!atCapacity).toNat := by
  fun_induction nextLoop eligible config atCapacity now resultCounter numWaiting l
  all_goals simp_all
  all_goals omega

/-- The scan changes the states of peers, not their distances or keys. -/
theorem nextLoop_peerKeys (resultCounter : Option Nat) (numWaiting : Nat)
    (l : List (Distance × QueryPeer TNodeId)) :
    (nextLoop eligible config atCapacity now resultCounter numWaiting l).peers.map (fun e => (e.1, e.2.key)) =
      l.map fun e => (e.1, e.2.key) := by
  fun_induction nextLoop eligible config atCapacity now resultCounter numWaiting l <;> simp_all

/-- A scan that runs to the end leaves no peer uncontacted. -/
theorem nextLoop_exit_none (resultCounter : Option Nat) (numWaiting : Nat)
    (l : List (Distance × QueryPeer TNodeId))
    (h : (nextLoop eligible config atCapacity now resultCounter numWaiting l).exit = none) :
    ∀ e ∈ (nextLoop eligible config atCapacity now resultCounter numWaiting l).peers,
      e.2.state ≠ .notContacted := by
  -- an early exit contradicts `h`; a turn that goes on leaves a contacted
  -- peer, and the induction hypothesis covers the rest
  fun_induction nextLoop eligible config atCapacity now resultCounter numWaiting l <;>
    simp_all <;> assumption

/-- How a scan that finished left the peers, from a result counter at `cnt`:
a counted peer `e` after `pre`, whose eligible peers are all settled, with
`cnt` and the counted peers of `pre` reaching `num_results` at `e` (or `cnt`
at or above it from the start). -/
def StoppedAt (numResults cnt : Nat) (peers : List (Distance × QueryPeer TNodeId)) : Prop :=
  ∃ pre e post, peers = pre ++ e :: post ∧ e.2.counts eligible = true ∧
    (∀ x ∈ pre, eligible x.2 = true → x.2.state.isSettled = true) ∧
    (cnt + (pre.filter fun x => x.2.counts eligible).length + 1 = numResults ∨
      (numResults ≤ cnt ∧ (pre.filter fun x => x.2.counts eligible) = []))

variable {eligible} in
theorem StoppedAt.here {numResults cnt : Nat} {x : Distance × QueryPeer TNodeId}
    (hx : x.2.counts eligible = true) (hn : numResults ≤ cnt + 1) (rest : List (Distance × QueryPeer TNodeId)) :
    StoppedAt eligible numResults cnt (x :: rest) :=
  ⟨[], x, rest, rfl, hx, by simp, by simp only [List.filter_nil, List.length_nil, and_true]; omega⟩

variable {eligible} in
/-- A peer that does not count, and is settled if eligible, can stand before the stop. -/
theorem StoppedAt.cons_skip {numResults cnt : Nat} {peers : List (Distance × QueryPeer TNodeId)}
    (h : StoppedAt eligible numResults cnt peers) {x : Distance × QueryPeer TNodeId}
    (hx : x.2.counts eligible = false) (hsettled : eligible x.2 = true → x.2.state.isSettled = true) :
    StoppedAt eligible numResults cnt (x :: peers) := by
  obtain ⟨pre, e, post, rfl, he, hpre, hn⟩ := h
  refine ⟨x :: pre, e, post, rfl, he, ?_, by simpa [List.filter_cons, hx] using hn⟩
  intro y hy hel
  rcases List.mem_cons.1 hy with rfl | hy
  · exact hsettled hel
  · exact hpre y hy hel

variable {eligible} in
/-- A counted peer before the stop moves the counter on by one, below `num_results`. -/
theorem StoppedAt.cons_count {numResults cnt : Nat} {peers : List (Distance × QueryPeer TNodeId)}
    (h : StoppedAt eligible numResults (cnt + 1) peers) {x : Distance × QueryPeer TNodeId}
    (hx : x.2.counts eligible = true) (hlt : cnt + 1 < numResults) :
    StoppedAt eligible numResults cnt (x :: peers) := by
  obtain ⟨pre, e, post, rfl, he, hpre, hn⟩ := h
  have hsettled : x.2.state.isSettled = true := by
    simp [(QueryPeer.counts_iff.1 hx).1, QueryPeerState.isSettled]
  refine ⟨x :: pre, e, post, rfl, he, ?_, ?_⟩
  · intro y hy hel
    rcases List.mem_cons.1 hy with rfl | hy
    · exact hsettled
    · exact hpre y hy hel
  · simp only [List.filter_cons, hx, if_true, List.length_cons]
    rcases hn with hn | ⟨hn, -⟩
    · exact .inl (by omega)
    · omega

/-- A scan that finishes has kept its result counter on, and stopped at the
peer that brought it to `num_results`. -/
theorem nextLoop_finished (resultCounter : Option Nat) (numWaiting : Nat)
    (l : List (Distance × QueryPeer TNodeId))
    (h : (nextLoop eligible config atCapacity now resultCounter numWaiting l).exit = some .finished) :
    ∃ cnt, resultCounter = some cnt ∧
      StoppedAt eligible config.numResults cnt (nextLoop eligible config atCapacity now resultCounter numWaiting l).peers := by
  fun_induction nextLoop eligible config atCapacity now resultCounter numWaiting l <;>
    simp only [NextLoop.cons_exit, NextLoop.cons_peers] at h ⊢
  · simp at h
  · simp at h
  · simp at h
  · -- a timed-out peer is settled and does not count
    rename_i hs _ ih
    obtain ⟨cnt, rfl, hstop⟩ := ih h
    exact ⟨cnt, rfl, hstop.cons_skip (by simp [QueryPeer.counts]) fun _ => rfl⟩
  · simp at h
  · -- a peer still awaited turns the counter off if it is eligible
    rename_i peer _ _ hs _ _ ih
    obtain ⟨cnt, hrc, hstop⟩ := ih h
    have hel : eligible peer = false := by
      cases hel : eligible peer
      · rfl
      · simp [hel] at hrc
    exact ⟨cnt, by simpa [hel] using hrc, hstop.cons_skip (by simp [QueryPeer.counts, hs]) (by simp [hel])⟩
  · rename_i hs cnt hel hn
    exact ⟨cnt, rfl, StoppedAt.here (by simp [QueryPeer.counts, hs, hel]) hn _⟩
  · rename_i hs cnt hel hn ih
    obtain ⟨_, hcnt, hstop⟩ := ih h
    cases hcnt
    exact ⟨cnt, rfl, hstop.cons_count (by simp [QueryPeer.counts, hs, hel]) (by omega)⟩
  · rename_i hs cnt hel ih
    obtain ⟨_, hcnt, hstop⟩ := ih h
    cases hcnt
    exact ⟨cnt, rfl, hstop.cons_skip (by simp [QueryPeer.counts, hs, hel]) (by simp [hel])⟩
  · rename_i hs ih
    obtain ⟨_, hcnt, -⟩ := ih h
    cases hcnt
  · rename_i hs ih
    obtain ⟨cnt, rfl, hstop⟩ := ih h
    exact ⟨cnt, rfl, hstop.cons_skip (by simp [QueryPeer.counts, hs]) (by simp [QueryPeerState.isSettled, hs])⟩
  · rename_i hs ih
    obtain ⟨cnt, rfl, hstop⟩ := ih h
    exact ⟨cnt, rfl, hstop.cons_skip (by simp [QueryPeer.counts, hs]) (by simp [QueryPeerState.isSettled, hs])⟩

end Scan

/-! ## `next` -/

/-- A peer neither waiting nor uncontacted is settled. -/
theorem isSettled_of {s : QueryPeerState} (hnc : s ≠ .notContacted) (hw : s.isWaiting = false) :
    s.isSettled = true := by
  cases s <;> simp_all [QueryPeerState.isWaiting, QueryPeerState.isSettled]

/-- Below capacity, the counter is below the larger of the two limits. -/
theorem numWaiting_lt_of_atCapacity {q : FindNodeQuery TNodeId} (h : q.atCapacity = false) :
    q.numWaiting < max q.config.parallelism q.config.numResults := by
  unfold atCapacity at h
  split at h <;> simp at h <;> omega

/-- The scan of `next` keeps the distances of the query's peers. -/
theorem nextLoop_keys_closestPeers (q : FindNodeQuery TNodeId) (now : Instant) :
    (nextLoop eligible q.config q.atCapacity now (some 0) q.numWaiting q.closestPeers.entries).peers.map
      Prod.fst = q.closestPeers.entries.map Prod.fst :=
  nextLoop_keys _ _ _ _ _ _ _

/-- The query as the scan of `next` leaves it, before the progress is set. -/
def scanned (q : FindNodeQuery TNodeId) (now : Instant) : FindNodeQuery TNodeId :=
  { q with
    closestPeers := q.closestPeers.withEntries
      (nextLoop eligible q.config q.atCapacity now (some 0) q.numWaiting q.closestPeers.entries).peers
      (nextLoop_keys_closestPeers eligible q now)
    numWaiting := (nextLoop eligible q.config q.atCapacity now (some 0) q.numWaiting q.closestPeers.entries).numWaiting }

/-- What `next` does to a query that has not finished: it finishes, after a
scan that stopped at the result count or that found nothing to wait for, or
it returns another state with the scanned query. -/
@[simp] theorem scanned_entries (q : FindNodeQuery TNodeId) (now : Instant) :
    (q.scanned eligible now).closestPeers.entries =
      (nextLoop eligible q.config q.atCapacity now (some 0) q.numWaiting q.closestPeers.entries).peers := rfl

@[simp] theorem scanned_numWaiting (q : FindNodeQuery TNodeId) (now : Instant) :
    (q.scanned eligible now).numWaiting =
      (nextLoop eligible q.config q.atCapacity now (some 0) q.numWaiting q.closestPeers.entries).numWaiting := rfl

@[simp] theorem scanned_config (q : FindNodeQuery TNodeId) (now : Instant) :
    (q.scanned eligible now).config = q.config := rfl

theorem nextWith_cases (q : FindNodeQuery TNodeId) (now : Instant) (hq : q.progress ≠ .finished) :
    (q.nextWith eligible now = ({ q.scanned eligible now with progress := .finished }, .finished) ∧
        ((nextLoop eligible q.config q.atCapacity now (some 0) q.numWaiting q.closestPeers.entries).exit =
            some .finished ∨
          ((nextLoop eligible q.config q.atCapacity now (some 0) q.numWaiting q.closestPeers.entries).exit = none ∧
            (nextLoop eligible q.config q.atCapacity now (some 0) q.numWaiting q.closestPeers.entries).numWaiting = 0))) ∨
      ∃ state, state ≠ .finished ∧ q.nextWith eligible now = (q.scanned eligible now, state) := by
  simp only [nextWith, if_neg hq]
  split
  · rename_i hexit
    exact .inl ⟨rfl, .inl hexit⟩
  · rename_i state hne _
    exact .inr ⟨state, hne, rfl⟩
  · rename_i hexit
    split_ifs with hpos
    · exact .inr ⟨.waiting none, by simp, rfl⟩
    · exact .inl ⟨rfl, .inr ⟨hexit, by simpa [scanned] using hpos⟩⟩

theorem nextWith_of_finished {q : FindNodeQuery TNodeId} (hq : q.progress = .finished) (now : Instant) :
    q.nextWith eligible now = (q, .finished) := by
  simp [nextWith, hq]

/-- A `next` that returns `Finished` leaves the query finished. -/
theorem nextWith_progress {q : FindNodeQuery TNodeId} {now : Instant}
    (h : (q.nextWith eligible now).2 = .finished) : (q.nextWith eligible now).1.progress = .finished := by
  by_cases hq : q.progress = .finished
  · rw [nextWith_of_finished eligible hq]
    exact hq
  · rcases nextWith_cases eligible q now hq with ⟨heq, -⟩ | ⟨state, hne, heq⟩
    · rw [heq]
    · rw [heq] at h
      exact absurd h hne

/-- The scan keeps the counter exact and bounded and every peer under its distance. -/
theorem Inv.scanned {q : FindNodeQuery TNodeId} (h : Inv keyOf eligible q) (hq : q.progress ≠ .finished)
    (now : Instant) : Inv keyOf eligible (q.scanned eligible now) := by
  have hcount := nextLoop_count eligible q.config q.atCapacity now (some 0) q.numWaiting
    q.closestPeers.entries (Nat.le_of_eq h.counted.symm)
  have hle := nextLoop_numWaiting_le eligible q.config q.atCapacity now (some 0) q.numWaiting
    q.closestPeers.entries
  have hkeys := nextLoop_peerKeys eligible q.config q.atCapacity now (some 0) q.numWaiting
    q.closestPeers.entries
  refine ⟨?_, ?_, fun e he => ?_, fun hfin => absurd hfin hq⟩
  · rw [scanned_numWaiting, scanned_entries]
    have := h.counted
    omega
  · rw [scanned_numWaiting, scanned_config]
    cases hcap : q.atCapacity
    · have := numWaiting_lt_of_atCapacity hcap
      simp only [hcap, Bool.not_false, Bool.toNat_true] at hle
      omega
    · simp only [hcap, Bool.not_true, Bool.toNat_false, Nat.add_zero] at hle
      exact Nat.le_trans hle h.bounded
  · -- the scanned peer has the distance and the key of a peer of the query
    have hmem : (e.1, e.2.key) ∈ q.closestPeers.entries.map fun e => (e.1, e.2.key) := by
      rw [← hkeys]
      exact List.mem_map_of_mem he
    obtain ⟨e₀, he₀, heq⟩ := List.mem_map.1 hmem
    simp only [Prod.mk.injEq] at heq
    rw [← heq.1, ← heq.2]
    exact h.keyed e₀ he₀

theorem Inv.finish {q : FindNodeQuery TNodeId} (h : Inv keyOf eligible q) (ht : Terminated keyOf eligible q) :
    Inv keyOf eligible { q with progress := .finished } :=
  ⟨h.counted, h.bounded, h.keyed, fun _ => ⟨ht.closer_settled, ht.all_settled⟩⟩

/-- A query all of whose peers are settled has a terminated result. -/
theorem Terminated.of_settled {q : FindNodeQuery TNodeId}
    (h : ∀ e ∈ q.closestPeers.entries, e.2.state.isSettled = true) : Terminated keyOf eligible q :=
  ⟨fun _ _ e he _ _ => h e he, fun _ => h⟩

/-- A query whose scan stopped at the `num_results`-th counted peer has a
terminated result: that peer is the last one returned, and every eligible
peer closer to the target came before it in the scan. -/
theorem Terminated.of_stoppedAt {q : FindNodeQuery TNodeId}
    (hkeyed : ∀ e ∈ q.closestPeers.entries, e.1 = q.targetDistance keyOf e.2.key)
    (hstop : StoppedAt eligible q.config.numResults 0 q.closestPeers.entries) : Terminated keyOf eligible q := by
  obtain ⟨pre, e, post, hentries, he, hpre, hn⟩ := hstop
  have hsorted := q.closestPeers.sorted
  rw [hentries] at hsorted hkeyed
  have hfilter : (q.closestPeers.entries.filter fun x => x.2.counts eligible) =
      (pre.filter fun x => x.2.counts eligible) ++ e :: post.filter fun x => x.2.counts eligible := by
    rw [hentries, List.filter_append, List.filter_cons, if_pos he]
  rcases hn with hn | ⟨hn, -⟩
  · -- the result ends with `e`
    have hres : q.intoResultWith eligible =
        (pre.filter fun x => x.2.counts eligible).map (fun x => x.2.key) ++ [e.2.key] := by
      rw [intoResultWith_eq, hfilter, List.map_append, List.map_cons, List.take_append,
        List.take_of_length_le (by simp; omega)]
      simp only [List.length_map]
      rw [show q.config.numResults - (pre.filter fun x => x.2.counts eligible).length = 1 by omega]
      rfl
    refine ⟨fun last hlast x hx hel hlt => ?_, fun hlen => ?_⟩
    · rw [hres, List.getLast?_concat, Option.mem_def, Option.some_inj] at hlast
      subst hlast
      rw [hentries] at hx
      have hxe : x.1 < e.1 := by
        rw [hkeyed x hx, hkeyed e (by simp)]
        exact hlt
      rcases List.mem_append.1 hx with hx | hx
      · exact hpre x hx hel
      · rcases List.mem_cons.1 hx with rfl | hx
        · exact absurd hxe (lt_irrefl _)
        · have hex : e.1 < x.1 := List.rel_of_pairwise_cons (List.pairwise_append.1 hsorted).2.1 hx
          exact absurd hxe (not_lt.2 (le_of_lt hex))
    · rw [hres] at hlen
      simp at hlen
      omega
  · -- `num_results` is zero: the result is empty
    have hres : q.intoResultWith eligible = [] := by
      rw [intoResultWith_eq, Nat.le_zero.1 hn, List.take_zero]
    refine ⟨fun last hlast => ?_, fun hlen => ?_⟩
    · simp [hres] at hlast
    · exact absurd hlen (by omega)

/-- `next` keeps the invariant. -/
theorem Inv.nextWith {q : FindNodeQuery TNodeId} (h : Inv keyOf eligible q) (now : Instant) :
    Inv keyOf eligible (q.nextWith eligible now).1 := by
  by_cases hq : q.progress = .finished
  · rw [nextWith_of_finished eligible hq]
    exact h
  have hs := h.scanned keyOf eligible hq now
  rcases nextWith_cases eligible q now hq with ⟨heq, hexit | ⟨hexit, hzero⟩⟩ | ⟨state, -, heq⟩
  · -- finished at the result count
    rw [heq]
    obtain ⟨cnt, hcnt, hstop⟩ := nextLoop_finished eligible q.config q.atCapacity now _ _ _ hexit
    cases hcnt
    exact hs.finish keyOf eligible (Terminated.of_stoppedAt keyOf eligible hs.keyed hstop)
  · -- finished with nothing left to contact or wait for
    rw [heq]
    refine hs.finish keyOf eligible (Terminated.of_settled keyOf eligible fun e he => ?_)
    have hnc := nextLoop_exit_none eligible q.config q.atCapacity now _ _ _ hexit e he
    have hnone : waitingIn (q.scanned eligible now).closestPeers.entries = 0 := by
      rw [← hs.counted]
      exact hzero
    have hw : e.2.state.isWaiting = false := by
      unfold waitingIn at hnone
      simpa using List.countP_eq_zero.1 hnone e.2 (List.mem_map_of_mem he)
    exact isSettled_of hnc hw
  · rw [heq]
    exact hs

/-! ## Runs -/

/-- `with_config` starts with nothing waited for and every peer under its distance. -/
theorem Inv.withConfigOf (config : QueryConfig) (targetKey : TNodeId)
    (knownClosestPeers : List (TNodeId × Bool)) :
    Inv keyOf eligible (FindNodeQuery.withConfigOf keyOf config targetKey knownClosestPeers) := by
  -- every initial entry is a known peer, not yet contacted, under its distance
  have hmem : ∀ e ∈ (FindNodeQuery.withConfigOf keyOf config targetKey knownClosestPeers).closestPeers.entries,
      ∃ peer ∈ knownClosestPeers, e = (distance (keyOf peer.1) (keyOf targetKey),
        QueryPeer.new peer.1 .notContacted peer.2) := by
    intro e he
    have he' := List.mem_of_mem_take (SortedMap.mem_ofList he)
    obtain ⟨peer, hpeer, rfl⟩ := List.mem_map.1 he'
    exact ⟨peer, hpeer, rfl⟩
  refine ⟨?_, Nat.zero_le _, fun e he => ?_, fun hfin => ?_⟩
  · refine (List.countP_eq_zero.2 fun peer hp => ?_).symm
    obtain ⟨e, he, rfl⟩ := List.mem_map.1 hp
    obtain ⟨_, _, rfl⟩ := hmem e he
    simp [QueryPeer.new, QueryPeerState.isWaiting]
  · obtain ⟨_, _, rfl⟩ := hmem e he
    rfl
  · simp [FindNodeQuery.withConfigOf] at hfin

theorem onSuccessWith_of_finished {q : FindNodeQuery TNodeId} (hq : q.progress = .finished) (nodeId : TNodeId)
    (closerPeers : List (TNodeId × Bool)) : q.onSuccessWith keyOf nodeId closerPeers = q := by
  simp [onSuccessWith, hq]

theorem onFailure_of_finished {q : FindNodeQuery TNodeId} (hq : q.progress = .finished) (peer : TNodeId) :
    q.onFailure keyOf peer = q := by
  simp [FindNodeQuery.onFailure, hq]

/-- Every run keeps the invariant of `FindNodeQuery`. -/
theorem Inv.run {q : FindNodeQuery TNodeId} (h : Inv keyOf (fun _ => true) q) :
    ∀ calls : List (QueryCall TNodeId TNodeId), Inv keyOf (fun _ => true) (q.run keyOf calls).1
  | [] => h
  | call :: calls => by
    cases call with
    | next now => exact Inv.run (h.nextWith keyOf _ now) calls
    | onSuccess peer closerPeers => exact Inv.run (h.onSuccessWith keyOf _ peer _) calls
    | onFailure peer => exact Inv.run (h.onFailure keyOf _ peer) calls

/-- A finished `FindNodeQuery` ignores every call, and every `next` returns `Finished`. -/
theorem run_of_finished {q : FindNodeQuery TNodeId} (hq : q.progress = .finished) :
    ∀ calls : List (QueryCall TNodeId TNodeId),
      (q.run keyOf calls).1 = q ∧ ∀ s ∈ (q.run keyOf calls).2, s = .finished
  | [] => ⟨rfl, by simp [FindNodeQuery.run]⟩
  | call :: calls => by
    have happly : q.apply keyOf call = (q, match call with | .next _ => some .finished | _ => none) := by
      cases call with
      | next now => simp [FindNodeQuery.apply, FindNodeQuery.next, nextWith_of_finished _ hq]
      | onSuccess peer closerPeers =>
        simp [FindNodeQuery.apply, FindNodeQuery.onSuccess, onSuccessWith_of_finished keyOf hq]
      | onFailure peer => simp [FindNodeQuery.apply, onFailure_of_finished keyOf hq]
    obtain ⟨hrun, hstates⟩ := run_of_finished hq calls
    refine ⟨by simp [FindNodeQuery.run, happly, hrun], fun s hs => ?_⟩
    simp only [FindNodeQuery.run, happly, List.mem_append] at hs
    rcases hs with hs | hs
    · cases call <;> simp_all
    · exact hstates s hs

/-- What a finished query returns: succeeded eligible peers, in increasing
distance to the target, at most `num_results` of them, and a terminated result. -/
structure FinishedResult (q : FindNodeQuery TNodeId) : Prop where
  progress_finished : q.progress = .finished
  succeeded : ∀ r ∈ q.intoResultWith eligible,
    ∃ e ∈ q.closestPeers.entries, e.2.key = r ∧ e.2.state = .succeeded ∧ eligible e.2 = true
  increasing : (q.intoResultWith eligible).Pairwise fun a b =>
    q.targetDistance keyOf a < q.targetDistance keyOf b
  at_most : (q.intoResultWith eligible).length ≤ q.config.numResults
  terminated : Terminated keyOf eligible q

/-- What holds in every reachable state of a query whose `eligible` peers
count: the counter is the number of waiting peers and within
`max(parallelism, num_results)`, and a `next` that returns `Finished` leaves a
finished result. -/
structure Guarantees (q : FindNodeQuery TNodeId) : Prop where
  waiting_counted : q.numWaiting = waitingIn q.closestPeers.entries
  waiting_bounded : q.numWaiting ≤ max q.config.parallelism q.config.numResults
  finished : ∀ now, (q.nextWith eligible now).2 = .finished →
    FinishedResult keyOf eligible (q.nextWith eligible now).1

theorem Inv.guarantees {q : FindNodeQuery TNodeId} (h : Inv keyOf eligible q) : Guarantees keyOf eligible q where
  waiting_counted := h.counted
  waiting_bounded := h.bounded
  finished now hfin := by
    have h' := h.nextWith keyOf eligible now
    have hprog := nextWith_progress eligible hfin
    exact ⟨hprog, fun r hr => mem_intoResultWith eligible hr, intoResultWith_increasing keyOf eligible h'.keyed,
      intoResultWith_length_le eligible _, h'.terminated hprog⟩

end FindNodeQuery

namespace PredicateQuery

variable {TNodeId TResult : Type} (keyOf : TNodeId → NodeId) (intoNodeId : TResult → TNodeId)

open FindNodeQuery

/-- `PredicateQuery::on_failure` keeps the invariant of the matching peers. -/
theorem Inv.onFailure {q : PredicateQuery TNodeId TResult} (h : Inv keyOf eligible q.toFindNodeQuery)
    (peer : TNodeId) : Inv keyOf eligible (q.onFailure keyOf peer).toFindNodeQuery := by
  unfold PredicateQuery.onFailure
  split_ifs with hq
  · exact h
  dsimp only
  split
  · exact h
  · rename_i p hfind
    split
    · rename_i timeout hs
      refine h.set keyOf eligible hq hfind { p with state := .failed } rfl (Nat.sub_le _ _) ?_
      have hpos : 0 < q.numWaiting := by
        rw [h.counted]
        exact List.countP_pos_iff.2 ⟨p, List.mem_map.2 ⟨_, SortedMap.find?_eq_some_iff.1 hfind, rfl⟩,
          by simp [hs, QueryPeerState.isWaiting]⟩
      simp [hs, QueryPeerState.isWaiting]
      omega
    · exact h

/-- Every run keeps the invariant of `PredicateQuery`. -/
theorem Inv.run {q : PredicateQuery TNodeId TResult} (h : Inv keyOf eligible q.toFindNodeQuery) :
    ∀ calls : List (QueryCall TNodeId TResult), Inv keyOf eligible (q.run keyOf intoNodeId calls).1.toFindNodeQuery
  | [] => h
  | call :: calls => by
    cases call with
    | next now => exact Inv.run (h.nextWith keyOf eligible now) calls
    | onSuccess peer closerPeers => exact Inv.run (h.onSuccessWith keyOf eligible peer _) calls
    | onFailure peer => exact Inv.run (Inv.onFailure keyOf h peer) calls

theorem onFailure_of_finished {q : PredicateQuery TNodeId TResult} (hq : q.progress = .finished)
    (peer : TNodeId) : q.onFailure keyOf peer = q := by
  simp [PredicateQuery.onFailure, hq]

/-- A finished `PredicateQuery` ignores every call, and every `next` returns `Finished`. -/
theorem run_of_finished {q : PredicateQuery TNodeId TResult} (hq : q.progress = .finished) :
    ∀ calls : List (QueryCall TNodeId TResult),
      (q.run keyOf intoNodeId calls).1 = q ∧ ∀ s ∈ (q.run keyOf intoNodeId calls).2, s = .finished
  | [] => ⟨rfl, by simp [PredicateQuery.run]⟩
  | call :: calls => by
    have happly : q.apply keyOf intoNodeId call =
        (q, match call with | .next _ => some .finished | _ => none) := by
      cases call with
      | next now => simp [PredicateQuery.apply, PredicateQuery.next, nextWith_of_finished _ hq]
      | onSuccess peer closerPeers =>
        simp [PredicateQuery.apply, PredicateQuery.onSuccess, onSuccessWith_of_finished keyOf hq]
      | onFailure peer => simp [PredicateQuery.apply, onFailure_of_finished keyOf hq]
    obtain ⟨hrun, hstates⟩ := run_of_finished hq calls
    refine ⟨by simp [PredicateQuery.run, happly, hrun], fun s hs => ?_⟩
    simp only [PredicateQuery.run, happly, List.mem_append] at hs
    rcases hs with hs | hs
    · cases call <;> simp_all
    · exact hstates s hs

end PredicateQuery

/-! ## Both queries -/

section Contract

variable {TNodeId : Type} (keyOf : TNodeId → NodeId)

/-- Along every run of `FindNodeQuery` from `with_config`, and of
`PredicateQuery` with its matching peers, the waiting counter is exact and
bounded, a `next` that returns `Finished` leaves a finished result, and the
finished query then ignores every call. -/
theorem query_invariant_and_termination (config : QueryConfig) (targetKey : TNodeId) :
    (∀ (knownClosestPeers : List TNodeId) (calls : List (QueryCall TNodeId TNodeId)),
      let q := ((FindNodeQuery.withConfig keyOf config targetKey knownClosestPeers).run keyOf calls).1
      q.Guarantees keyOf (fun _ => true) ∧
        ∀ now, (q.next now).2 = .finished → ∀ calls' : List (QueryCall TNodeId TNodeId),
          ((q.next now).1.run keyOf calls').1 = (q.next now).1 ∧
            ∀ s ∈ ((q.next now).1.run keyOf calls').2, s = .finished) ∧
    (∀ {TResult : Type} (intoNodeId : TResult → TNodeId) (knownClosestPeers : List (PredicateKey TNodeId))
        (predicate : TResult → Bool) (calls : List (QueryCall TNodeId TResult)),
      let q := ((PredicateQuery.withConfig keyOf config targetKey knownClosestPeers predicate).run keyOf
        intoNodeId calls).1
      q.toFindNodeQuery.Guarantees keyOf PredicateQuery.eligible ∧
        ∀ now, (q.next now).2 = .finished → ∀ calls' : List (QueryCall TNodeId TResult),
          ((q.next now).1.run keyOf intoNodeId calls').1 = (q.next now).1 ∧
            ∀ s ∈ ((q.next now).1.run keyOf intoNodeId calls').2, s = .finished) := by
  refine ⟨fun knownClosestPeers calls => ?_, fun intoNodeId knownClosestPeers predicate calls => ?_⟩
  · have h := (FindNodeQuery.Inv.withConfigOf keyOf (fun _ => true) config targetKey
      (knownClosestPeers.map fun key => (key, true))).run keyOf calls
    exact ⟨h.guarantees, fun now hfin =>
      FindNodeQuery.run_of_finished keyOf (FindNodeQuery.nextWith_progress _ hfin)⟩
  · have h := PredicateQuery.Inv.run keyOf intoNodeId
      (q := PredicateQuery.withConfig keyOf config targetKey knownClosestPeers predicate)
      (FindNodeQuery.Inv.withConfigOf keyOf PredicateQuery.eligible config targetKey _) calls
    exact ⟨h.guarantees, fun now hfin =>
      PredicateQuery.run_of_finished keyOf intoNodeId (FindNodeQuery.nextWith_progress _ hfin)⟩

end Contract

end Discv5.QueryPool
