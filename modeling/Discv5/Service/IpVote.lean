import Discv5.NodeInfo
import Discv5.Lib.ListMap

/-!
# Votes on the node's external address

`src/service/ip_vote.rs`. Peers report the socket they see the node at;
`IpVote` keeps one vote per peer and IP version, with the instant it
expires, and `majority` names, for each version, the socket with the most
votes still live, once one has at least `minimum_threshold` of them.

`filter_stale_find_most_frequent` finds that socket in one pass over the
hash map, in whatever order the map iterates, counting votes per socket and
moving a running maximum with a `>=` comparison that also asks for the
threshold. What the pass has seen after each vote is `Seen`; it holds for
every prefix of every order (`Seen.foldl`), so the socket returned has the
most live votes (`IsMajority`), and the map left behind holds exactly the
live votes (`ip_vote_majority`).

The two maps are hash maps keyed by node id: lists with one entry per node
id, whose order is the iteration order.
-/

namespace Discv5.Service

section Count

variable {K : Type} [DecidableEq K]

/-- The votes for `k` still live at `now` (their expiry after `now`). -/
def liveCount (votes : List (NodeId × K × Nat)) (now : Nat) (k : K) : Nat :=
  votes.countP fun e => e.2.1 = k ∧ now < e.2.2

/-- `result` is what `majority` is documented to return: a socket exactly
when one has `minimumThreshold` live votes, and then one with the most. -/
def IsMajority (votes : List (NodeId × K × Nat)) (minimumThreshold now : Nat) (result : Option K) : Prop :=
  (result.isSome ↔ ∃ k, minimumThreshold ≤ liveCount votes now k) ∧
    ∀ s, result = some s → ∀ k, liveCount votes now k ≤ liveCount votes now s

/-- The counts do not depend on the order of the votes. -/
theorem liveCount_perm {votes votes' : List (NodeId × K × Nat)} (h : votes.Perm votes') (now : Nat) (k : K) :
    liveCount votes now k = liveCount votes' now k :=
  h.countP_eq _

/-- Whether a result is a majority does not depend on the order of the votes. -/
theorem isMajority_perm {votes votes' : List (NodeId × K × Nat)} (h : votes.Perm votes')
    (minimumThreshold now : Nat) (result : Option K) :
    IsMajority votes minimumThreshold now result ↔ IsMajority votes' minimumThreshold now result := by
  simp only [IsMajority, liveCount_perm h]

/-! ## `filter_stale_find_most_frequent` -/

/-- The state of the loop: the live votes kept, the count per socket and the
running maximum. -/
structure MostFrequentLoop (K : Type) where
  updated : List (NodeId × K × Nat)
  counter : K → Nat
  max : Option (K × Nat)

/-- One turn of the loop, on a vote `(node_id, (vote, instant))`. -/
def mostFrequentStep (minimumThreshold now : Nat) (acc : MostFrequentLoop K) (entry : NodeId × K × Nat) :
    MostFrequentLoop K :=
  let nodeId := entry.1
  let vote := entry.2.1
  let instant := entry.2.2
  -- Discard stale votes.
  if instant ≤ now then acc
  else
    let count := acc.counter vote + 1
    let currentMax := (acc.max.map Prod.snd).getD 0
    { updated := ListMap.insert acc.updated nodeId (vote, instant)
      counter := Function.update acc.counter vote count
      max := if count ≥ currentMax ∧ count ≥ minimumThreshold then some (vote, count) else acc.max }

/-- `filter_stale_find_most_frequent`: the live votes, and the socket of the
running maximum, visiting the votes in the order of the list. -/
def filterStaleFindMostFrequent (votes : List (NodeId × K × Nat)) (minimumThreshold now : Nat) :
    List (NodeId × K × Nat) × Option K :=
  let r := votes.foldl (mostFrequentStep minimumThreshold now) ⟨[], fun _ => 0, none⟩
  (r.updated, r.max.map Prod.fst)

/-- What the loop holds after the votes `seen`: the live ones kept in order,
their counts, and a maximum that is set exactly when a socket has reached
the threshold, at a socket with the most live votes. -/
structure Seen (minimumThreshold now : Nat) (seen : List (NodeId × K × Nat)) (acc : MostFrequentLoop K) :
    Prop where
  updated : acc.updated = seen.filter fun e => now < e.2.2
  counter : ∀ k, acc.counter k = liveCount seen now k
  none_iff : acc.max = none ↔ ∀ k, liveCount seen now k < minimumThreshold
  some_max : ∀ s c, acc.max = some (s, c) →
    c = liveCount seen now s ∧ minimumThreshold ≤ c ∧ ∀ k, liveCount seen now k ≤ c

variable {minimumThreshold now : Nat}

theorem Seen.nil (h : 0 < minimumThreshold) :
    Seen minimumThreshold now ([] : List (NodeId × K × Nat)) ⟨[], fun _ => 0, none⟩ where
  updated := rfl
  counter _ := rfl
  none_iff := by simp [liveCount, h]
  some_max _ _ h := by cases h

theorem liveCount_append_stale {seen : List (NodeId × K × Nat)} {e : NodeId × K × Nat} (he : e.2.2 ≤ now)
    (k : K) : liveCount (seen ++ [e]) now k = liveCount seen now k := by
  simp [liveCount, List.countP_append]
  omega

theorem liveCount_append_live {seen : List (NodeId × K × Nat)} {e : NodeId × K × Nat} (he : now < e.2.2)
    (k : K) : liveCount (seen ++ [e]) now k = liveCount seen now k + if e.2.1 = k then 1 else 0 := by
  by_cases hk : e.2.1 = k <;> simp [liveCount, List.countP_append, hk, he]

/-- One vote, from a node not seen before, keeps what the loop holds. -/
theorem Seen.step {seen : List (NodeId × K × Nat)} {acc : MostFrequentLoop K} (h : Seen minimumThreshold now seen acc)
    {e : NodeId × K × Nat} (hfresh : e.1 ∉ seen.map Prod.fst) :
    Seen minimumThreshold now (seen ++ [e]) (mostFrequentStep minimumThreshold now acc e) := by
  unfold mostFrequentStep
  dsimp only
  split_ifs with hstale hmax
  · -- a stale vote changes nothing
    refine ⟨?_, fun k => ?_, ?_, fun s c hs => ?_⟩
    · rw [h.updated, List.filter_append]
      simp [Nat.not_lt.2 hstale]
    · rw [h.counter, liveCount_append_stale hstale]
    · simp only [liveCount_append_stale hstale]
      exact h.none_iff
    · simp only [liveCount_append_stale hstale]
      exact h.some_max s c hs
  all_goals
    have hlive : now < e.2.2 := Nat.lt_of_not_le hstale
    have hcount : ∀ k, liveCount (seen ++ [e]) now k = liveCount seen now k + if e.2.1 = k then 1 else 0 :=
      liveCount_append_live hlive
    -- the vote's node id is new, so `updated.insert` appends it
    have hupdated : ListMap.insert acc.updated e.1 (e.2.1, e.2.2) = (seen ++ [e]).filter fun e => now < e.2.2 := by
      rw [h.updated, ListMap.insert, List.filter_append, ListMap.erase, List.filter_eq_self.2]
      · simp [hlive]
      · intro x hx
        have : x.1 ≠ e.1 := fun hx' => hfresh (hx' ▸ List.mem_map_of_mem (List.mem_of_mem_filter hx))
        simpa using this
    have hcounter : ∀ k, Function.update acc.counter e.2.1 (acc.counter e.2.1 + 1) k = liveCount (seen ++ [e]) now k := by
      intro k
      rw [hcount, Function.update_apply]
      by_cases hk : k = e.2.1
      · subst hk
        simp [h.counter]
      · simp [hk, Ne.symm hk, h.counter]
  · -- the vote's socket takes the maximum: it has at least as many votes as any
    obtain ⟨hge, hthr⟩ := hmax
    refine ⟨hupdated, hcounter, by simp; exact ⟨e.2.1, by rw [hcount]; simp [← h.counter]; omega⟩, ?_⟩
    rintro s c hs
    cases hs
    refine ⟨by rw [hcount, h.counter]; simp, hthr, fun k => ?_⟩
    rw [hcount]
    by_cases hk : e.2.1 = k
    · subst hk
      simp [h.counter]
    · simp only [hk, if_false, Nat.add_zero]
      cases hm : acc.max with
      | none => exact Nat.le_of_lt (Nat.lt_of_lt_of_le ((h.none_iff.1 hm) k) hthr)
      | some m =>
        obtain ⟨s, c⟩ := m
        have hle := ((h.some_max s c hm).2.2 k)
        simp only [hm, Option.map_some, Option.getD_some] at hge
        omega
  · -- the maximum stays: the vote's socket stays below it or below the threshold
    refine ⟨hupdated, hcounter, ?_, fun s c (hs : acc.max = some (s, c)) => ?_⟩
    · rw [h.none_iff]
      constructor
      · intro hall k
        rw [hcount]
        split_ifs with hk
        · subst hk
          cases hm : acc.max with
          | none => simp [hm, h.counter] at hmax; omega
          | some m => exact absurd ((h.none_iff).2 hall) (by simp [hm])
        · simpa using hall k
      · intro hall k
        have := hall k
        rw [hcount] at this
        omega
    · obtain ⟨hc, hthr, hmaxle⟩ := h.some_max s c hs
      simp only [hs, Option.map_some, Option.getD_some] at hmax
      have hs' : e.2.1 ≠ s := by
        rintro rfl
        rw [h.counter] at hmax
        omega
      refine ⟨by rw [hcount, if_neg hs', Nat.add_zero]; exact hc, hthr, fun k => ?_⟩
      rw [hcount]
      split_ifs with hk
      · subst hk
        rw [h.counter] at hmax
        omega
      · simpa using hmaxle k

/-- The loop over the votes in any order, from a state that holds after
`seen`. -/
theorem Seen.foldl {seen : List (NodeId × K × Nat)} {acc : MostFrequentLoop K} (h : Seen minimumThreshold now seen acc) :
    ∀ (votes : List (NodeId × K × Nat)), ((seen ++ votes).map Prod.fst).Nodup →
      Seen minimumThreshold now (seen ++ votes) (votes.foldl (mostFrequentStep minimumThreshold now) acc)
  | [], _ => by simpa using h
  | e :: votes, hnodup => by
    have hfresh : e.1 ∉ seen.map Prod.fst := by
      intro hmem
      rw [List.map_append, List.nodup_append] at hnodup
      exact hnodup.2.2 _ hmem _ List.mem_cons_self rfl
    have hstep := h.step hfresh
    rw [List.foldl_cons]
    have := hstep.foldl votes (by simpa using hnodup)
    simpa using this

/-- For every order of the votes, one per node id, the pass keeps the live
votes and returns a majority. -/
theorem filterStaleFindMostFrequent_spec (votes : List (NodeId × K × Nat)) (hnodup : (votes.map Prod.fst).Nodup)
    (hthreshold : 0 < minimumThreshold) :
    (filterStaleFindMostFrequent votes minimumThreshold now).1 = votes.filter (fun e => now < e.2.2) ∧
      IsMajority votes minimumThreshold now (filterStaleFindMostFrequent votes minimumThreshold now).2 := by
  have h : Seen minimumThreshold now ([] ++ votes) _ := (Seen.nil hthreshold).foldl votes (by simpa using hnodup)
  simp only [List.nil_append] at h
  refine ⟨h.updated, ?_, fun s hs k => ?_⟩
  · simp only [filterStaleFindMostFrequent, Option.isSome_map]
    rw [Option.isSome_iff_ne_none, Ne, h.none_iff]
    simp
  · simp only [filterStaleFindMostFrequent, Option.map_eq_some_iff] at hs
    obtain ⟨⟨s', c⟩, hm, rfl⟩ := hs
    obtain ⟨hc, -, hmax⟩ := h.some_max s' c hm
    rw [← hc]
    exact hmax k

/-- The pass keeps one vote per node id, whatever it is given. -/
theorem nodup_filterStaleFindMostFrequent (votes : List (NodeId × K × Nat)) (minimumThreshold now : Nat) :
    ((filterStaleFindMostFrequent votes minimumThreshold now).1.map Prod.fst).Nodup := by
  suffices ∀ (acc : MostFrequentLoop K), (acc.updated.map Prod.fst).Nodup →
      ((votes.foldl (mostFrequentStep minimumThreshold now) acc).updated.map Prod.fst).Nodup from
    this _ List.nodup_nil
  induction votes with
  | nil => exact fun _ h => h
  | cons e votes ih =>
    intro acc hacc
    apply ih
    unfold mostFrequentStep
    dsimp only
    split_ifs
    · exact hacc
    all_goals exact ListMap.nodup_keys_insert hacc _ _

end Count

/-! ## The vote maps -/

/-- `IpVote`: each vote is the socket voted for and the instant it expires.
The threshold that `new` refuses below 2, and the one vote per node id of
the hash maps, are fields. -/
structure IpVote where
  ipv4Votes : List (NodeId × SocketAddrV4 × Nat)
  ipv6Votes : List (NodeId × SocketAddrV6 × Nat)
  minimumThreshold : Nat
  voteDuration : Nat
  two_le_minimumThreshold : 2 ≤ minimumThreshold
  nodup_ipv4Votes : (ipv4Votes.map Prod.fst).Nodup
  nodup_ipv6Votes : (ipv6Votes.map Prod.fst).Nodup

namespace IpVote

/-- `IpVote::new`: panics (here `none`) on a threshold below 2. -/
def new (minimumThreshold voteDuration : Nat) : Option IpVote :=
  if h : minimumThreshold < 2 then none
  else some ⟨[], [], minimumThreshold, voteDuration, Nat.le_of_not_lt h, List.nodup_nil, List.nodup_nil⟩

/-- `IpVote::insert`: a node's vote replaces its earlier one of the same IP
version, and expires `vote_duration` after `now`. -/
def insert (v : IpVote) (key : NodeId) (socket : SocketAddr) (now : Nat) : IpVote :=
  match socket with
  | .v4 socket =>
    { v with
      ipv4Votes := ListMap.insert v.ipv4Votes key (socket, now + v.voteDuration)
      nodup_ipv4Votes := ListMap.nodup_keys_insert v.nodup_ipv4Votes _ _ }
  | .v6 socket =>
    { v with
      ipv6Votes := ListMap.insert v.ipv6Votes key (socket, now + v.voteDuration)
      nodup_ipv6Votes := ListMap.nodup_keys_insert v.nodup_ipv6Votes _ _ }

/-- `IpVote::has_minimum_threshold`: drops the expired votes and says, per IP
version, whether as many votes as the threshold are left. -/
def hasMinimumThreshold (v : IpVote) (now : Nat) : (Bool × Bool) × IpVote :=
  let v' : IpVote :=
    { v with
      ipv4Votes := v.ipv4Votes.filter fun e => e.2.2 > now
      ipv6Votes := v.ipv6Votes.filter fun e => e.2.2 > now
      nodup_ipv4Votes := v.nodup_ipv4Votes.sublist (List.filter_sublist.map _)
      nodup_ipv6Votes := v.nodup_ipv6Votes.sublist (List.filter_sublist.map _) }
  ((decide (v'.ipv4Votes.length ≥ v.minimumThreshold), decide (v'.ipv6Votes.length ≥ v.minimumThreshold)), v')

/-- `IpVote::majority`: the majority socket of each IP version, the vote
maps replaced by what the pass kept. -/
def majority (v : IpVote) (now : Nat) : (Option SocketAddrV4 × Option SocketAddrV6) × IpVote :=
  let ipv4 := filterStaleFindMostFrequent v.ipv4Votes v.minimumThreshold now
  let ipv6 := filterStaleFindMostFrequent v.ipv6Votes v.minimumThreshold now
  ((ipv4.2, ipv6.2),
    { v with
      ipv4Votes := ipv4.1
      ipv6Votes := ipv6.1
      nodup_ipv4Votes := nodup_filterStaleFindMostFrequent v.ipv4Votes v.minimumThreshold now
      nodup_ipv6Votes := nodup_filterStaleFindMostFrequent v.ipv6Votes v.minimumThreshold now })

/-- Whatever the vote maps hold and in whatever order they are visited,
`majority` returns for each IP version a socket exactly when one has
`minimum_threshold` live votes, and then one with the most live votes; the
maps keep exactly the live votes. -/
theorem ip_vote_majority (v : IpVote) (now : Nat) :
    IsMajority v.ipv4Votes v.minimumThreshold now (v.majority now).1.1 ∧
      IsMajority v.ipv6Votes v.minimumThreshold now (v.majority now).1.2 ∧
      (v.majority now).2.ipv4Votes = v.ipv4Votes.filter (fun e => now < e.2.2) ∧
      (v.majority now).2.ipv6Votes = v.ipv6Votes.filter (fun e => now < e.2.2) := by
  have hthreshold : 0 < v.minimumThreshold := Nat.lt_of_lt_of_le (by decide) v.two_le_minimumThreshold
  have h4 : _ ∧ IsMajority v.ipv4Votes v.minimumThreshold now _ :=
    filterStaleFindMostFrequent_spec v.ipv4Votes v.nodup_ipv4Votes hthreshold
  have h6 : _ ∧ IsMajority v.ipv6Votes v.minimumThreshold now _ :=
    filterStaleFindMostFrequent_spec v.ipv6Votes v.nodup_ipv6Votes hthreshold
  exact ⟨h4.2, h6.2, h4.1, h6.1⟩

end IpVote

end Discv5.Service
