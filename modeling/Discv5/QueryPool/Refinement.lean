import Discv5.QueryPool.Invariant
import Discv5.Kbucket.TableInvariant

/-!
# When the predicate query behaves as the closest-peers query

A `PredicateQuery` whose predicate accepts every result, started on peers
that all match, is meant to be a `FindNodeQuery`. The two share the scan of
`next`, `on_success` and the result; with every peer matching, the scan
counts the same peers (`nextLoop_congr`), so each step keeps the two records
equal (`Mirrors`). Their `on_failure` differ on one state: a peer that has
timed out fails in `FindNodeQuery` and stays unresponsive in
`PredicateQuery`, where a late `on_success` still counts it. The queries
therefore agree along every run whose `on_failure` calls never name a
timed-out peer (`predicate_run_mirrors`), and a run that does name one
makes their results differ.
-/

namespace Discv5.QueryPool

open Kbucket

namespace FindNodeQuery

variable {TNodeId : Type}

section Scan

variable (config : QueryConfig) (atCapacity : Bool) (now : Instant)

/-- The scan reads `eligible` only on the peers it visits. -/
theorem nextLoop_congr {eligible eligible' : QueryPeer TNodeId → Bool} :
    ∀ (resultCounter : Option Nat) (numWaiting : Nat) (l : List (Distance × QueryPeer TNodeId)),
      (∀ e ∈ l, eligible e.2 = eligible' e.2) →
      nextLoop eligible config atCapacity now resultCounter numWaiting l =
        nextLoop eligible' config atCapacity now resultCounter numWaiting l
  | _, _, [], _ => rfl
  | resultCounter, numWaiting, (d, peer) :: rest, h => by
    have hpeer : eligible peer = eligible' peer := h _ List.mem_cons_self
    have ih : ∀ resultCounter numWaiting,
        nextLoop eligible config atCapacity now resultCounter numWaiting rest =
          nextLoop eligible' config atCapacity now resultCounter numWaiting rest :=
      fun resultCounter numWaiting =>
        nextLoop_congr resultCounter numWaiting rest fun e he => h e (List.mem_cons_of_mem _ he)
    simp only [nextLoop, hpeer, ih]

/-- The scan leaves whether each peer matched. -/
theorem nextLoop_predicateMatch (eligible : QueryPeer TNodeId → Bool) (resultCounter : Option Nat)
    (numWaiting : Nat) (l : List (Distance × QueryPeer TNodeId)) :
    (nextLoop eligible config atCapacity now resultCounter numWaiting l).peers.map (·.2.predicateMatch) =
      l.map (·.2.predicateMatch) := by
  fun_induction nextLoop eligible config atCapacity now resultCounter numWaiting l <;> simp_all

end Scan

/-- `next` reads `eligible` only on the query's peers. -/
theorem nextWith_congr {eligible eligible' : QueryPeer TNodeId → Bool} (q : FindNodeQuery TNodeId)
    (now : Instant) (h : ∀ e ∈ q.closestPeers.entries, eligible e.2 = eligible' e.2) :
    q.nextWith eligible now = q.nextWith eligible' now := by
  unfold nextWith
  simp only [nextLoop_congr q.config q.atCapacity now (some 0) q.numWaiting q.closestPeers.entries h]

/-- Writing a peer with the match of the one it replaces keeps every peer matching. -/
theorem match_set {m : SortedMap Distance (QueryPeer TNodeId)}
    (hm : ∀ e ∈ m.entries, e.2.predicateMatch = true) {d : Distance} {v₀ : QueryPeer TNodeId}
    (hfind : m.find? d = some v₀) {v : QueryPeer TNodeId} (hv : v.predicateMatch = v₀.predicateMatch) :
    ∀ e ∈ (m.set d v).entries, e.2.predicateMatch = true := by
  intro e he
  rcases SortedMap.mem_set he with rfl | he
  · rw [hv]
    exact hm _ (SortedMap.find?_eq_some_iff.1 hfind)
  · exact hm e he

variable (keyOf : TNodeId → NodeId)

/-- The run's `on_failure` calls never name a peer that has timed out. -/
def FailsNoTimedOut : FindNodeQuery TNodeId → List (QueryCall TNodeId TNodeId) → Prop
  | _, [] => True
  | q, call :: calls =>
    (match call with
      | .onFailure peer =>
        (q.closestPeers.find? (q.targetDistance keyOf peer)).map (·.state) ≠ some .unresponsive
      | _ => True) ∧
    FailsNoTimedOut (q.apply keyOf call).1 calls

end FindNodeQuery

namespace PredicateQuery

variable {TNodeId : Type} (keyOf : TNodeId → NodeId)

open FindNodeQuery

@[simp] theorem onFailure_predicate {TResult : Type} (q : PredicateQuery TNodeId TResult) (peer : TNodeId) :
    (q.onFailure keyOf peer).predicate = q.predicate := by
  unfold PredicateQuery.onFailure
  split_ifs
  · rfl
  dsimp only
  split
  · rfl
  · split <;> rfl

/-- The predicate query has the closest-peers query's record, every peer
matches, and the predicate accepts every result. -/
structure Mirrors (f : FindNodeQuery TNodeId) (p : PredicateQuery TNodeId TNodeId) : Prop where
  same : p.toFindNodeQuery = f
  all_match : ∀ e ∈ f.closestPeers.entries, e.2.predicateMatch = true
  accepts : ∀ r, p.predicate r = true

theorem Mirrors.withConfig (config : QueryConfig) (targetKey : TNodeId) (knownClosestPeers : List TNodeId)
    {predicate : TNodeId → Bool} (hpredicate : ∀ r, predicate r = true) :
    Mirrors (FindNodeQuery.withConfig keyOf config targetKey knownClosestPeers)
      (PredicateQuery.withConfig keyOf config targetKey (knownClosestPeers.map fun key => ⟨key, true⟩)
        predicate) where
  same := by simp [PredicateQuery.withConfig, FindNodeQuery.withConfig, Function.comp_def]
  all_match e he := by
    have he' := List.mem_of_mem_take (SortedMap.mem_ofList he)
    obtain ⟨peer, hpeer, rfl⟩ := List.mem_map.1 he'
    obtain ⟨key, -, rfl⟩ := List.mem_map.1 hpeer
    rfl
  accepts := hpredicate

theorem Mirrors.next {f : FindNodeQuery TNodeId} {p : PredicateQuery TNodeId TNodeId} (h : Mirrors f p)
    (now : Instant) : Mirrors (f.next now).1 (p.next now).1 ∧ (p.next now).2 = (f.next now).2 := by
  obtain ⟨rfl, hmatch, haccepts⟩ := h
  -- with every peer matching, the two scans count the same peers
  have hscan : p.toFindNodeQuery.nextWith eligible now = p.toFindNodeQuery.nextWith (fun _ => true) now :=
    nextWith_congr _ now fun e he => by simp [eligible, hmatch e he]
  refine ⟨⟨by simp [PredicateQuery.next, FindNodeQuery.next, hscan], fun e he => ?_, haccepts⟩,
    by simp [PredicateQuery.next, FindNodeQuery.next, hscan]⟩
  -- the scanned peers keep their match
  by_cases hq : p.progress = .finished
  · simp only [FindNodeQuery.next, nextWith_of_finished _ hq] at he
    exact hmatch e he
  · have hpm := nextLoop_predicateMatch p.config p.atCapacity now (fun _ => true) (some 0) p.numWaiting
      p.closestPeers.entries
    have hmem : e.2.predicateMatch ∈ p.closestPeers.entries.map (·.2.predicateMatch) := by
      rw [← hpm]
      rcases nextWith_cases (fun _ => true) p.toFindNodeQuery now hq with ⟨heq, -⟩ | ⟨_, -, heq⟩ <;>
        simp only [FindNodeQuery.next, heq] at he <;> exact List.mem_map_of_mem he
    obtain ⟨e₀, he₀, heq⟩ := List.mem_map.1 hmem
    rw [← heq]
    exact hmatch e₀ he₀

theorem Mirrors.onSuccess {f : FindNodeQuery TNodeId} {p : PredicateQuery TNodeId TNodeId} (h : Mirrors f p)
    (peer : TNodeId) (closerPeers : List TNodeId) :
    Mirrors (f.onSuccess keyOf peer closerPeers) (p.onSuccess keyOf id peer closerPeers) := by
  obtain ⟨rfl, hmatch, haccepts⟩ := h
  have hsame : closerPeers.map (fun result => (result, p.predicate result)) =
      closerPeers.map fun key => (key, true) := by
    simp [haccepts]
  refine ⟨by simp [PredicateQuery.onSuccess, FindNodeQuery.onSuccess, hsame], fun e he => ?_, haccepts⟩
  -- a peer written or reported has a match of `true`
  have hinc : ∀ (g : FindNodeQuery TNodeId), (∀ e ∈ g.closestPeers.entries, e.2.predicateMatch = true) →
      ∀ e ∈ (g.incorporate keyOf (closerPeers.map fun key => (key, true))).closestPeers.entries,
        e.2.predicateMatch = true := by
    intro g hg e he
    obtain ⟨-, hmem⟩ := foldl_insertCloserPeer keyOf g.targetKey g.closestPeers.length g.config.numResults
      (closerPeers.map fun key => (key, true)) (g.closestPeers, false)
    rcases hmem e he with he | ⟨r, hr, rfl⟩
    · exact hg e he
    · obtain ⟨key, -, rfl⟩ := List.mem_map.1 hr
      rfl
  simp only [FindNodeQuery.onSuccess, FindNodeQuery.onSuccessWith] at he
  split_ifs at he
  · exact hmatch e he
  split at he
  · exact hmatch e he
  · rename_i q hfind
    split at he
    · exact hinc _ (match_set hmatch hfind (by rfl)) e he
    · exact hinc _ (match_set hmatch hfind (by rfl)) e he
    · exact hmatch e he
    · exact hmatch e he
    · exact hmatch e he

/-- The two `on_failure` agree unless the peer has timed out. -/
theorem Mirrors.onFailure {f : FindNodeQuery TNodeId} {p : PredicateQuery TNodeId TNodeId} (h : Mirrors f p)
    (peer : TNodeId)
    (hpeer : (f.closestPeers.find? (f.targetDistance keyOf peer)).map (·.state) ≠ some .unresponsive) :
    Mirrors (f.onFailure keyOf peer) (p.onFailure keyOf peer) := by
  obtain ⟨rfl, hmatch, haccepts⟩ := h
  have hsame : (p.onFailure keyOf peer).toFindNodeQuery = p.toFindNodeQuery.onFailure keyOf peer := by
    unfold PredicateQuery.onFailure FindNodeQuery.onFailure
    by_cases hq : p.progress = .finished
    · simp [hq]
    simp only [hq, if_false]
    cases hfind : p.closestPeers.find? (distance (keyOf peer) (keyOf p.targetKey)) with
    | none => rfl
    | some q =>
      -- only a timed-out peer, which `hpeer` excludes, is treated differently
      cases hs : q.state with
      | unresponsive => simp [targetDistance, hfind, hs] at hpeer
      | waiting timeout => simp [hs]
      | notContacted => simp [hs]
      | succeeded => simp [hs]
      | failed => simp [hs]
  refine ⟨hsame, fun e he => ?_, by simpa using haccepts⟩
  simp only [FindNodeQuery.onFailure] at he
  split_ifs at he
  · exact hmatch e he
  split at he
  · exact hmatch e he
  · rename_i q hfind
    split at he
    · exact match_set hmatch hfind (by rfl) e he
    · exact match_set hmatch hfind (by rfl) e he
    · exact hmatch e he

/-- Along a run whose `on_failure` calls never name a timed-out peer, a
predicate query that accepts everything returns the states and the
result of the closest-peers query. -/
theorem Mirrors.run {f : FindNodeQuery TNodeId} {p : PredicateQuery TNodeId TNodeId} (h : Mirrors f p) :
    ∀ calls, FailsNoTimedOut keyOf f calls →
      Mirrors (f.run keyOf calls).1 (p.run keyOf id calls).1 ∧ (p.run keyOf id calls).2 = (f.run keyOf calls).2
  | [], _ => ⟨h, rfl⟩
  | call :: calls, hcalls => by
    obtain ⟨hcall, hrest⟩ := hcalls
    cases call with
    | next now =>
      obtain ⟨hnext, hstate⟩ := h.next now
      obtain ⟨hm, hs⟩ := hnext.run calls hrest
      exact ⟨hm, by simp [PredicateQuery.run, FindNodeQuery.run, PredicateQuery.apply, FindNodeQuery.apply,
        hstate, hs]⟩
    | onSuccess peer closerPeers =>
      obtain ⟨hm, hs⟩ := (h.onSuccess keyOf peer closerPeers).run calls hrest
      exact ⟨hm, by simp [PredicateQuery.run, FindNodeQuery.run, PredicateQuery.apply, FindNodeQuery.apply, hs]⟩
    | onFailure peer =>
      obtain ⟨hm, hs⟩ := (h.onFailure keyOf peer hcall).run calls hrest
      exact ⟨hm, by simp [PredicateQuery.run, FindNodeQuery.run, PredicateQuery.apply, FindNodeQuery.apply, hs]⟩

/-- From `with_config`, along a run whose `on_failure` calls never name a
timed-out peer, the predicate query that accepts every result and the
closest-peers query return the same states and the same result. -/
theorem predicate_run_mirrors (config : QueryConfig) (targetKey : TNodeId) (knownClosestPeers : List TNodeId)
    {predicate : TNodeId → Bool} (hpredicate : ∀ r, predicate r = true) (calls : List (QueryCall TNodeId TNodeId))
    (hcalls : FailsNoTimedOut keyOf (FindNodeQuery.withConfig keyOf config targetKey knownClosestPeers) calls) :
    let f := (FindNodeQuery.withConfig keyOf config targetKey knownClosestPeers).run keyOf calls
    let p := (PredicateQuery.withConfig keyOf config targetKey (knownClosestPeers.map fun key => ⟨key, true⟩)
      predicate).run keyOf id calls
    p.2 = f.2 ∧ p.1.intoResult = f.1.intoResult := by
  obtain ⟨hm, hs⟩ := (Mirrors.withConfig keyOf config targetKey knownClosestPeers hpredicate).run keyOf calls hcalls
  refine ⟨hs, ?_⟩
  -- every peer matches, so counting the matching succeeded peers counts all succeeded peers
  have hmatch := hm.all_match
  simp only [PredicateQuery.intoResult, FindNodeQuery.intoResult, ← hm.same]
  rw [intoResultWith_eq, intoResultWith_eq]
  congr 2
  refine List.filter_congr fun e he => ?_
  rw [hm.same] at he
  simp [QueryPeer.counts, eligible, hmatch e he]

end PredicateQuery

/-! ## A timed-out peer that fails -/

/-- The node id `0x00..02`. -/
def twoNodeId : NodeId := Kbucket.KBucketsTable.twoNodeId

/-- With the default parallelism 3, around the target `0x00..00`, a query
contacts `0x00..01` at instant 0 and `0x00..02` at instant 5; at instant 10
the first has timed out. Its request then fails and a late result arrives:
`FindNodeQuery` has failed the peer and ignores the result, `PredicateQuery`
kept it unresponsive and counts it as succeeded, so the two results differ. -/
theorem predicate_query_diverges :
    ¬ ∀ (config : QueryConfig) (targetKey : NodeId) (knownClosestPeers : List NodeId)
        (calls : List (QueryCall NodeId NodeId)),
      let f := (FindNodeQuery.withConfig id config targetKey knownClosestPeers).run id calls
      let p := (PredicateQuery.withConfig id config targetKey (knownClosestPeers.map fun key => ⟨key, true⟩)
        fun _ => true).run id id calls
      p.2 = f.2 ∧ p.1.intoResult = f.1.intoResult := by
  intro h
  have hresult := (h (QueryConfig.newFromConfig 3 10) KBucketsTable.zeroNodeId
    [KBucketsTable.oneNodeId, twoNodeId]
    [.next 0, .next 5, .next 10, .onFailure KBucketsTable.oneNodeId, .onSuccess KBucketsTable.oneNodeId []]).2
  revert hresult
  decide

end Discv5.QueryPool
