import Discv5.Service.Nodes

/-!
# FINDNODE between requester and responder

A query asks each peer for the distances around the peer's own distance to
the target (`findnode_log2distance` of `src/service/query_info.rs`). The
peer answers with `send_nodes_response`, and the requester checks every
record of each NODES response against the distances it asked for, banning
the peer when one is off (the NODES branch of
`Service::handle_rpc_response`, `checkNodesDistances`).

A responder whose table stores every record under its node id passes that
check for every request without distance 0, and for the ENR request `[0]`
(`nodes_response_passes_check`). Every other request holding 0 makes the
responder send its own record next to the others, at no log2 distance from
itself, and the requester drops it and bans the responder
(`sendNodesResponse_zero_bans`). A query sends such a request to a peer at
distance 1 from the target: it asks for `[1, 2, 0]`.
-/

namespace Discv5.Service

open Rust Kbucket

variable {Enr : Type}

/-! ## The requester's distances -/

/-- `DISTANCES_TO_REQUEST_PER_PEER`. -/
def distancesToRequestPerPeer : Nat := 3

/-- The `while` loop of `findnode_log2distance`, one turn per `difference`:
the distance `difference` above the peer's when it is at most 256, then,
while the list is still short, the one below when it does not underflow
(`checked_sub`). `fuel` bounds the turns. -/
def findnodeLoop (distance size : Nat) : Nat → Nat → List Nat → List Nat
  | 0, _, resultList => resultList
  | fuel + 1, difference, resultList =>
    if resultList.length < size then
      let resultList :=
        if distance + difference ≤ 256 then resultList ++ [distance + difference] else resultList
      let resultList :=
        if resultList.length < size ∧ difference ≤ distance then resultList ++ [distance - difference]
        else resultList
      findnodeLoop distance size fuel (difference + 1) resultList
    else resultList

/-- `findnode_log2distance`: the peer's log2 distance to the target and the
distances around it, or `none` when the peer is the target. The outer
`none` is the panic for `size > 127`; below that each turn of the loop
pushes a distance, so `size` turns are enough. -/
def findnodeLog2distance (target peer : NodeId) (size : Nat) : Option (Option (List UInt64)) :=
  if size > 127 then none
  else some <| (log2Distance peer target).map fun distance =>
    ((findnodeLoop distance size size 1 [distance]).take size).map UInt64.ofNat

/-- `QueryType`. -/
inductive QueryType where
  | findNode (nodeId : NodeId)

/-- `QueryInfo`, with the fields `rpc_request` reads. -/
structure QueryInfo where
  queryType : QueryType
  distancesToRequest : Nat

/-- `QueryInfo::rpc_request`: a FINDNODE of the distances around the
target, or of `[0]` (the peer's own record) when the peer is the target;
`none` is the panic of `findnode_log2distance`. -/
def QueryInfo.rpcRequest (q : QueryInfo) (peer : NodeId) : Option RequestBody :=
  match q.queryType with
  | .findNode nodeId =>
    (findnodeLog2distance nodeId peer q.distancesToRequest).map fun distances =>
      .findNode (distances.getD [0])

/-- The three distances a query asks a peer at distance `d` from the
target for: `d`, `d + 1` when it is a distance, and those below. -/
theorem findnodeLog2distance_three {target peer : NodeId} {d : Nat}
    (hd : log2Distance peer target = some d) :
    findnodeLog2distance target peer distancesToRequestPerPeer =
      some (some ((if d + 1 ≤ 256 then [d, d + 1, d - 1] else [d, d - 1, d - 2]).map UInt64.ofNat)) := by
  have hb := log2Distance_bounds hd
  by_cases htop : d + 1 ≤ 256
  · -- one turn pushes `d + 1` and `d - 1`; the next finds three distances
    have hloop : findnodeLoop d 3 3 1 [d] = [d, d + 1, d - 1] := by
      rw [findnodeLoop, if_pos (by simp)]
      dsimp only
      rw [if_pos htop, if_pos ⟨by simp, hb.1⟩, findnodeLoop, if_neg (by simp)]
      rfl
    simp [findnodeLog2distance, distancesToRequestPerPeer, hd, hloop, htop]
  · have hd256 : d = 256 := by omega
    subst hd256
    have hloop : findnodeLoop 256 3 3 1 [256] = [256, 255, 254] := by decide
    simp [findnodeLog2distance, distancesToRequestPerPeer, hd, hloop]

/-- The request of a query to a peer at distance `d` from the target. -/
theorem rpcRequest_findNode {target peer : NodeId} {d : Nat} (hd : log2Distance peer target = some d) :
    (⟨.findNode target, distancesToRequestPerPeer⟩ : QueryInfo).rpcRequest peer =
      some (.findNode ((if d + 1 ≤ 256 then [d, d + 1, d - 1] else [d, d - 1, d - 2]).map UInt64.ofNat)) := by
  simp [QueryInfo.rpcRequest, findnodeLog2distance_three hd]

/-- A query asks for distance 0 next to others only of a peer at distance 1. -/
theorem zero_not_mem_rpcRequest {target peer : NodeId} {d : Nat} (hd : log2Distance peer target = some d)
    (h1 : 2 ≤ d) :
    (0 : UInt64) ∉ (if d + 1 ≤ 256 then [d, d + 1, d - 1] else [d, d - 1, d - 2]).map UInt64.ofNat := by
  have hb := log2Distance_bounds hd
  -- every distance asked for is in `[1, 257]`, so none is `0` as a `u64`
  have hpos : ∀ x, 1 ≤ x → x ≤ 257 → UInt64.ofNat x ≠ 0 := by
    intro x h1 h2 h
    have := congrArg UInt64.toNat h
    simp only [UInt64.toNat_ofNat', UInt64.toNat_zero] at this
    omega
  intro hmem
  split at hmem <;>
  · simp only [List.map_cons, List.map_nil, List.mem_cons, List.not_mem_nil, or_false] at hmem
    rcases hmem with h | h | h <;> exact hpos _ (by omega) (by omega) h.symm

/-! ## The sequence of distances

The loop of `findnode_log2distance` walks the differences 1, 2, … away from
the peer's distance `d`, the distance above first, skips what leaves
`[0, 256]`, and stops once `size` distances are found. Written as the first
`size` elements of everything its turns would push (`findnodeLoop_eq_take`),
it is the sequence `d, d + 1, d - 1, …` over the integers with the values
out of range skipped (`distanceSequence`, `isDistance`). Each turn up to
the difference 128 pushes at least one distance, which is why the loop ends
for `size ≤ 127`. -/

/-- `d, d + 1, d - 1, …, d + n, d - n`, as integers. -/
def distanceSequence (d n : Nat) : List Int :=
  (d : Int) :: (List.range' 1 n).flatMap fun k : Nat => [(d : Int) + k, (d : Int) - k]

/-- A log2 distance a FINDNODE can name. -/
def isDistance (x : Int) : Bool := decide (0 ≤ x ∧ x ≤ 256)

/-- What the turn of the loop at `difference` pushes when the list has room
for both distances. -/
def findnodePushes (distance difference : Nat) : List Nat :=
  (if distance + difference ≤ 256 then [distance + difference] else []) ++
    (if difference ≤ distance then [distance - difference] else [])

/-- One turn of the loop of a list still short: what it pushes, up to `size`. -/
theorem findnodeLoop_succ {distance size fuel difference : Nat} {resultList : List Nat}
    (h : resultList.length < size) :
    findnodeLoop distance size (fuel + 1) difference resultList =
      findnodeLoop distance size fuel (difference + 1)
        ((resultList ++ findnodePushes distance difference).take size) := by
  rw [findnodeLoop, if_pos h]
  dsimp only
  congr 1
  -- the list has room for at least one more distance
  obtain ⟨k, hk⟩ : ∃ k, size - resultList.length = k + 1 := ⟨size - resultList.length - 1, by omega⟩
  by_cases hup : distance + difference ≤ 256 <;> by_cases hdown : difference ≤ distance <;>
    simp [findnodePushes, hup, hdown, List.take_append, List.take_of_length_le (Nat.le_of_lt h), hk, h]
  -- both fit: the second is pushed exactly when the first left room
  cases k with
  | zero => simp; omega
  | succ k => simp; omega

theorem take_append_take_self (l m : List Nat) (n : Nat) : (l.take n ++ m).take n = (l ++ m).take n := by
  by_cases hl : l.length ≤ n
  · rw [List.take_of_length_le hl]
  · rw [List.take_append_of_le_length (by simp; omega), List.take_append_of_le_length (by omega),
      List.take_take, Nat.min_self]

/-- The loop, for any fuel, is the first `size` elements of its list followed
by the pushes of every turn the fuel allows. -/
theorem findnodeLoop_eq_take (distance size : Nat) :
    ∀ (fuel difference : Nat) (resultList : List Nat), resultList.length ≤ size →
      findnodeLoop distance size fuel difference resultList =
        (resultList ++ (List.range' difference fuel).flatMap (findnodePushes distance)).take size
  | 0, _, resultList, h => by simp [findnodeLoop, List.take_of_length_le h]
  | fuel + 1, difference, resultList, h => by
    by_cases hlt : resultList.length < size
    · rw [findnodeLoop_succ hlt,
        findnodeLoop_eq_take distance size fuel _ _ (List.length_take_le _ _), take_append_take_self,
        List.range'_succ, List.flatMap_cons, List.append_assoc]
    · -- the list is full: the loop stops and the rest is cut off
      rw [findnodeLoop, if_neg hlt, List.take_left' (by omega)]

/-- Up to the difference 128 every turn pushes a distance: one that is too
far above is at most as far below. -/
theorem findnodePushes_ne_nil (distance : Nat) {difference : Nat} (hdiff : difference ≤ 128) :
    findnodePushes distance difference ≠ [] := by
  by_cases hup : distance + difference ≤ 256
  · simp [findnodePushes, hup]
  · simp [findnodePushes, hup]
    omega

theorem le_length_flatMap_findnodePushes (distance : Nat) :
    ∀ (n difference : Nat), difference + n ≤ 129 →
      n ≤ ((List.range' difference n).flatMap (findnodePushes distance)).length
  | 0, _, _ => Nat.zero_le _
  | n + 1, difference, h => by
    have hpush : 0 < (findnodePushes distance difference).length :=
      List.length_pos_iff.2 (findnodePushes_ne_nil distance (by omega))
    have ih := le_length_flatMap_findnodePushes distance n (difference + 1) (by omega)
    rw [List.range'_succ, List.flatMap_cons, List.length_append]
    omega

/-- A turn's pushes are the turn's two integers with those out of range skipped. -/
theorem findnodePushes_eq_filter {distance difference : Nat} (h256 : distance ≤ 256) (hdiff : 1 ≤ difference) :
    (findnodePushes distance difference).map (fun x : Nat => (x : Int)) =
      [(distance : Int) + difference, (distance : Int) - difference].filter isDistance := by
  have hup : ((distance : Int) + difference ≤ 256) ↔ distance + difference ≤ 256 := by omega
  have hdown : (0 ≤ (distance : Int) - difference) ↔ difference ≤ distance := by omega
  have hpos : (0 : Int) ≤ distance + difference := by omega
  have hle : (distance : Int) - difference ≤ 256 := by omega
  simp only [findnodePushes, isDistance, List.filter_cons, hup, hdown, hpos, hle, true_and, and_true,
    decide_eq_true_eq, List.filter_nil]
  split_ifs <;> simp <;> omega

/-- Everything the turns push is the sequence of distances, skipped out of range. -/
theorem flatMap_findnodePushes {distance : Nat} (h256 : distance ≤ 256) (n : Nat) :
    (distance :: (List.range' 1 n).flatMap (findnodePushes distance)).map (fun x : Nat => (x : Int)) =
      (distanceSequence distance n).filter isDistance := by
  have hhead : isDistance distance = true := by simp [isDistance]; omega
  rw [distanceSequence, List.filter_cons_of_pos hhead, List.map_cons, List.map_flatMap, List.filter_flatMap]
  congr 1
  exact List.flatMap_congr fun k hk => findnodePushes_eq_filter h256 (List.mem_range'_1.1 hk).1

/-- The sequence names no distance twice. -/
theorem distanceSequence_nodup (d n : Nat) : (distanceSequence d n).Nodup := by
  refine List.nodup_cons.2 ⟨?_, List.nodup_flatMap.2 ⟨fun k hk => ?_, ?_⟩⟩
  · simp only [List.mem_flatMap, List.mem_range'_1, List.mem_cons, List.not_mem_nil, or_false, not_exists,
      not_and]
    intro k hk
    omega
  · have := (List.mem_range'_1.1 hk).1
    simp
    omega
  · -- the turns at two differences share no distance
    refine List.Pairwise.imp_of_mem (fun {a b} ha hb hab => ?_) List.pairwise_lt_range'
    have := (List.mem_range'_1.1 ha).1
    simp only [Function.onFun, List.disjoint_cons_left, List.disjoint_cons_right, List.mem_cons,
      List.not_mem_nil, or_false, List.disjoint_nil_left, not_false_eq_true, and_true, not_or]
    omega

/-- `findnode_log2distance` for every size in `[1, 127]`: `none` exactly for
a peer that is the target; otherwise the first `size` distances of the
sequence around the peer's distance `d`, skipped out of range. The loop
ends by its own test, since more fuel changes nothing, and the result holds
`size` distinct distances in `[0, 256]`, `d` first. -/
theorem findnode_log2distance_sequence (target peer : NodeId) {size : Nat} (h1 : 1 ≤ size)
    (h127 : size ≤ 127) :
    (findnodeLog2distance target peer size = some none ↔ target = peer) ∧
      ∀ d, log2Distance peer target = some d →
        ∃ l : List Nat, findnodeLog2distance target peer size = some (some (l.map UInt64.ofNat)) ∧
          (∀ n, size ≤ n → l.map (fun x : Nat => (x : Int)) = ((distanceSequence d n).filter isDistance).take size) ∧
          (∀ fuel, size ≤ fuel → findnodeLoop d size fuel 1 [d] = findnodeLoop d size size 1 [d]) ∧
          l.length = size ∧ l.Nodup ∧ (∀ x ∈ l, x ≤ 256) ∧ l.head? = some d := by
  have hsize : ¬ size > 127 := by omega
  refine ⟨?_, fun d hd => ?_⟩
  · rw [findnodeLog2distance, if_neg hsize, Option.some.injEq, Option.map_eq_none_iff,
      log2Distance_eq_none_iff, eq_comm]
  have hb := log2Distance_bounds hd
  -- every fuel from `size` on gives the first `size` of the same pushes
  have hlong := le_length_flatMap_findnodePushes d (size - 1) 1 (by omega)
  have hloop : ∀ fuel, size ≤ fuel → findnodeLoop d size fuel 1 [d] =
      (d :: (List.range' 1 (size - 1)).flatMap (findnodePushes d)).take size := by
    intro fuel hfuel
    have hsplit : List.range' 1 fuel = List.range' 1 (size - 1) ++ List.range' (1 + (size - 1)) (fuel - (size - 1)) := by
      rw [List.range'_append_1]
      congr 1
      omega
    rw [findnodeLoop_eq_take d size fuel 1 [d] (by simpa using h1), hsplit, List.flatMap_append,
      ← List.append_assoc, List.take_append_of_le_length (by rw [List.length_append, List.length_singleton]; omega)]
    rfl
  set l := (d :: (List.range' 1 (size - 1)).flatMap (findnodePushes d)).take size with hl
  have hint : ∀ n, size ≤ n → l.map (fun x : Nat => (x : Int)) = ((distanceSequence d n).filter isDistance).take size := by
    intro n hn
    have hsplit : List.range' 1 n = List.range' 1 (size - 1) ++ List.range' (1 + (size - 1)) (n - (size - 1)) := by
      rw [List.range'_append_1]
      congr 1
      omega
    rw [← flatMap_findnodePushes hb.2, hsplit, List.flatMap_append, ← List.cons_append, ← List.map_take,
      List.take_append_of_le_length (by rw [List.length_cons]; omega), hl]
  have hnodup : (l.map fun x : Nat => (x : Int)).Nodup := by
    rw [hint size (Nat.le_refl size)]
    exact ((distanceSequence_nodup d size).filter _).sublist (List.take_sublist _ _)
  refine ⟨l, ?_, hint, fun fuel hfuel => by rw [hloop fuel hfuel, hloop size (Nat.le_refl size)], ?_,
    hnodup.of_map _, fun x hx => ?_, ?_⟩
  · simp only [findnodeLog2distance, if_neg hsize, hd, Option.map_some, hloop size (Nat.le_refl size),
      List.take_take, Nat.min_self, hl]
  · simp only [hl, List.length_take, List.length_cons]
    omega
  · have hmem : (x : Int) ∈ (distanceSequence d size).filter isDistance :=
      List.mem_of_mem_take (by rw [← hint size (Nat.le_refl size)]; exact List.mem_map_of_mem hx)
    simp only [List.mem_filter, isDistance, decide_eq_true_eq] at hmem
    omega
  · simp only [hl, List.head?_take, if_neg (by omega : size ≠ 0), List.head?_cons]

/-- A peer at log2 distance 1 from the target is asked for the first three
distances of `1, 2, 0, 3, -1, …` without `-1`. -/
theorem findnode_log2distance_sequence_one :
    findnodeLog2distance KBucketsTable.oneNodeId KBucketsTable.zeroNodeId 3 ≠ some none ∧
      ∃ l : List Nat, findnodeLog2distance KBucketsTable.oneNodeId KBucketsTable.zeroNodeId 3 =
          some (some (l.map UInt64.ofNat)) ∧
        l.map (fun x : Nat => (x : Int)) = ((distanceSequence 1 3).filter isDistance).take 3 ∧ l.Nodup := by
  obtain ⟨hnone, hsome⟩ := findnode_log2distance_sequence KBucketsTable.oneNodeId KBucketsTable.zeroNodeId
    (by decide : 1 ≤ 3) (by decide : 3 ≤ 127)
  have hd : log2Distance KBucketsTable.zeroNodeId KBucketsTable.oneNodeId = some 1 :=
    bucketIndex_new_eq_some_iff.mp KBucketsTable.bucketIndex_zeroNodeId_oneNodeId
  obtain ⟨l, hl, hseq, -, -, hnodup, -⟩ := hsome 1 hd
  refine ⟨fun h => ?_, l, hl, hseq 3 (Nat.le_refl 3), hnodup⟩
  -- the two ids differ, since one is at a log2 distance from the other
  rw [hnone.1 h, log2Distance_self] at hd
  cases hd

/-! ## The requester's check -/

/-- The distance check of the NODES branch of `Service::handle_rpc_response`
on the records of a response from `peer` to a FINDNODE of
`distancesRequested`: the records kept, and whether `peer` is banned. -/
def checkNodesDistances (nodeId : Enr → NodeId) (peer : NodeId) (distancesRequested : List UInt64)
    (nodes : List Enr) : List Enr × Bool :=
  match distancesRequested with
  | [0] =>
    -- an ENR request: more than one record bans the peer
    if nodes.length > 1 then (nodes.filter fun enr => (log2Distance peer (nodeId enr)).isNone, true)
    else (nodes, false)
  | _ =>
    let kept := nodes.filter fun enr =>
      ((log2Distance peer (nodeId enr)).map fun distance =>
        distancesRequested.contains (UInt64.ofNat distance)).getD false
    (kept, decide (kept.length < nodes.length))

section Check

variable {nodeId : Enr → NodeId} {peer : NodeId} {distancesRequested : List UInt64} {nodes : List Enr}

/-- Records at requested distances pass the check unchanged. -/
theorem checkNodesDistances_eq_self (hD : distancesRequested ≠ [0])
    (h : ∀ e ∈ nodes, ∃ d, log2Distance peer (nodeId e) = some d ∧
      UInt64.ofNat d ∈ distancesRequested) :
    checkNodesDistances nodeId peer distancesRequested nodes = (nodes, false) := by
  unfold checkNodesDistances
  split
  · exact absurd rfl hD
  · have hkept : nodes.filter (fun enr => ((log2Distance peer (nodeId enr)).map fun distance =>
        distancesRequested.contains (UInt64.ofNat distance)).getD false) = nodes := by
      refine List.filter_eq_self.mpr fun e he => ?_
      obtain ⟨d, hd, hmem⟩ := h e he
      simp [hd, hmem]
    dsimp only
    rw [hkept]
    simp

/-- A record at no log2 distance from the peer (its own) gets the peer
banned by any check but the ENR request's. -/
theorem checkNodesDistances_bans (hD : distancesRequested ≠ [0]) {e : Enr} (he : e ∈ nodes)
    (hnone : log2Distance peer (nodeId e) = none) :
    (checkNodesDistances nodeId peer distancesRequested nodes).2 = true := by
  unfold checkNodesDistances
  split
  · exact absurd rfl hD
  · simp only [decide_eq_true_eq]
    exact List.length_filter_lt_length_iff_exists.mpr ⟨e, he, by simp [hnone]⟩

/-- The answer to the ENR request passes when it holds at most one record. -/
theorem checkNodesDistances_enr (h : nodes.length ≤ 1) :
    checkNodesDistances nodeId peer [0] nodes = (nodes, false) := by
  simp [checkNodesDistances, Nat.not_lt.mpr h]

end Check

/-! ## The responder against the check -/

section Responder

variable {c : EnrCodec Enr} {localEnr : Enr} {maxNodesResponse now : Nat}

/-- Against a FINDNODE that holds distance 0 next to other distances (or
twice), the responder sends its own record, which its requester's check of
the concatenated records, and of the response holding it, drops with a ban. -/
theorem sendNodesResponse_zero_bans (nodeId : Enr → NodeId) {kbuckets : KBucketsTable Enr}
    (hinv : kbuckets.Inv) (hlocal : nodeId localEnr = kbuckets.localKey) (nodeAddress : NodeAddress)
    (rpcId : RequestId) {distances : List UInt64} (h0 : (0 : UInt64) ∈ distances)
    (hD : distances ≠ [0]) :
    ∃ responses t', sendNodesResponse c localEnr maxNodesResponse now kbuckets nodeAddress rpcId
        distances = some (responses, t') ∧
      ∃ chunks : List (List Enr),
        responses = chunks.map (fun nodes => ⟨rpcId, .nodes (UInt64.ofNat chunks.length) nodes⟩) ∧
        localEnr ∈ chunks.flatten ∧
        (checkNodesDistances nodeId kbuckets.localKey distances chunks.flatten).2 = true ∧
        ∃ nodes ∈ chunks, localEnr ∈ nodes ∧
          (checkNodesDistances nodeId kbuckets.localKey distances nodes).2 = true := by
  have hsome : (findNodesToSend localEnr maxNodesResponse now kbuckets nodeAddress distances).isSome :=
    findNodesToSend_isSome hinv nodeAddress distances
  obtain ⟨⟨nodes, t'⟩, hfind⟩ := Option.isSome_iff_exists.mp hsome
  obtain ⟨chunks, hresp, hflat⟩ := nodesResponses_flatten c rpcId nodes
  have hself : localEnr ∈ chunks.flatten := hflat ▸ self_mem_findNodesToSend h0 hfind
  have hnone : log2Distance kbuckets.localKey (nodeId localEnr) = none := by
    rw [hlocal, log2Distance_self]
  obtain ⟨part, hpart, hin⟩ := List.mem_flatten.mp hself
  refine ⟨_, t', sendNodesResponse_eq_some.mpr ⟨nodes, hfind, rfl⟩, chunks, hresp, hself,
    checkNodesDistances_bans hD hself hnone, part, hpart, hin, checkNodesDistances_bans hD hin hnone⟩

/-- The ENR request is answered with our record alone. -/
theorem findNodesToSend_enr (kbuckets : KBucketsTable Enr) (nodeAddress : NodeAddress) :
    findNodesToSend localEnr maxNodesResponse now kbuckets nodeAddress [0] = some ([localEnr], kbuckets) := by
  simp [findNodesToSend]

/-- Against a responder whose table stores every record under its node id,
a request without distance 0, and the ENR request `[0]`, are answered with
records that pass the requester's check unchanged: concatenated, and
response by response. -/
theorem nodes_response_passes_check (nodeId : Enr → NodeId) {kbuckets : KBucketsTable Enr}
    (hinv : kbuckets.Inv) (hkeyed : kbuckets.NodesSat fun n => nodeId n.value = n.key)
    (nodeAddress : NodeAddress) (rpcId : RequestId) {distances : List UInt64}
    (hD : (0 : UInt64) ∉ distances ∨ distances = [0]) :
    ∃ responses t', sendNodesResponse c localEnr maxNodesResponse now kbuckets nodeAddress rpcId
        distances = some (responses, t') ∧
      ∃ chunks : List (List Enr),
        responses = chunks.map (fun nodes => ⟨rpcId, .nodes (UInt64.ofNat chunks.length) nodes⟩) ∧
        checkNodesDistances nodeId kbuckets.localKey distances chunks.flatten = (chunks.flatten, false) ∧
        ∀ nodes ∈ chunks, checkNodesDistances nodeId kbuckets.localKey distances nodes = (nodes, false) := by
  have hsome : (findNodesToSend localEnr maxNodesResponse now kbuckets nodeAddress distances).isSome :=
    findNodesToSend_isSome hinv nodeAddress distances
  obtain ⟨⟨nodes, t'⟩, hfind⟩ := Option.isSome_iff_exists.mp hsome
  obtain ⟨chunks, hresp, hflat⟩ := nodesResponses_flatten c rpcId nodes
  refine ⟨_, t', sendNodesResponse_eq_some.mpr ⟨nodes, hfind, rfl⟩, chunks, hresp, ?_⟩
  rcases hD with hD | rfl
  · -- every record comes from the table, at a distance asked for
    obtain ⟨hsat', hinv', hkey', hmem⟩ := mem_findNodesToSend hinv hkeyed hfind
    have hgood : ∀ e ∈ nodes, ∃ d, log2Distance kbuckets.localKey (nodeId e) = some d ∧
        UInt64.ofNat d ∈ distances := by
      intro e he
      rcases hmem e he with ⟨-, h0⟩ | ⟨x, hx, hx0, -, n, hn, -, rfl⟩
      · exact absurd h0 hD
      · have hk : nodeId n.value = n.key := hsat'.of_mem_nodesAtDistance hn
        obtain ⟨-, hlog⟩ := KBucketsTable.mem_nodesAtDistance hinv' hx0 hn
        exact ⟨x.toNat, by rw [hk, ← hkey', hlog], by simpa using hx⟩
    have hne : distances ≠ [0] := fun h => hD (h ▸ List.mem_singleton_self _)
    refine ⟨checkNodesDistances_eq_self hne fun e he => hgood e (hflat ▸ he), fun part hp =>
      checkNodesDistances_eq_self hne fun e he => hgood e ?_⟩
    exact hflat ▸ List.mem_flatten.mpr ⟨part, hp, he⟩
  · -- the ENR request: one record, in every response and in all of them
    rw [findNodesToSend_enr, Option.some.injEq, Prod.mk.injEq] at hfind
    have hlen : chunks.flatten.length ≤ 1 := by rw [hflat, ← hfind.1]; simp
    exact ⟨checkNodesDistances_enr hlen, fun part hp =>
      checkNodesDistances_enr ((List.sublist_flatten_of_mem hp).length_le.trans hlen)⟩

end Responder

/-- A query for a target at distance 1 from the peer asks it for
`[1, 2, 0]`, and the peer, answering honestly from any table, sends its own
record among the others; the requester's check drops that record and bans
the peer, on the concatenated records and on the response that holds it. -/
theorem findnode_distance_one_bans (c : EnrCodec Enr) (nodeId : Enr → NodeId) (localEnr : Enr)
    (maxNodesResponse now : Nat) {kbuckets : KBucketsTable Enr} (hinv : kbuckets.Inv)
    (hlocal : nodeId localEnr = kbuckets.localKey) (requester : NodeAddress) (rpcId : RequestId)
    {target : NodeId} (hd : log2Distance kbuckets.localKey target = some 1) :
    (⟨.findNode target, distancesToRequestPerPeer⟩ : QueryInfo).rpcRequest kbuckets.localKey =
        some (.findNode [1, 2, 0]) ∧
      ∃ responses t', sendNodesResponse c localEnr maxNodesResponse now kbuckets requester rpcId
          [1, 2, 0] = some (responses, t') ∧
        ∃ chunks : List (List Enr),
          responses = chunks.map (fun nodes => ⟨rpcId, .nodes (UInt64.ofNat chunks.length) nodes⟩) ∧
          localEnr ∈ chunks.flatten ∧
          (checkNodesDistances nodeId kbuckets.localKey [1, 2, 0] chunks.flatten).2 = true ∧
          ∃ nodes ∈ chunks, localEnr ∈ nodes ∧
            (checkNodesDistances nodeId kbuckets.localKey [1, 2, 0] nodes).2 = true := by
  refine ⟨?_, sendNodesResponse_zero_bans nodeId hinv hlocal requester rpcId (by decide) (by decide)⟩
  rw [rpcRequest_findNode hd]
  rfl

/-- The peer `0x00..00`, with the empty table of the service's parameters,
asked by a query for `0x00..01`. -/
theorem findnode_distance_one_bans_empty_table :
    let kbuckets : KBucketsTable Unit :=
      KBucketsTable.new KBucketsTable.zeroNodeId 60 maxNodesPerBucket none none
    let c : EnrCodec Unit := ⟨fun _ => [0xc0], fun _ => .error .inputTooShort, NodeId.parse32⟩
    let requester : NodeAddress := ⟨.v4 ⟨⟨[127, 0, 0, 1], rfl⟩, 9000⟩, KBucketsTable.oneNodeId⟩
    kbuckets.Inv ∧ (fun _ : Unit => KBucketsTable.zeroNodeId) () = kbuckets.localKey ∧
      log2Distance kbuckets.localKey KBucketsTable.oneNodeId = some 1 ∧
      (⟨.findNode KBucketsTable.oneNodeId, distancesToRequestPerPeer⟩ : QueryInfo).rpcRequest
          kbuckets.localKey = some (.findNode [1, 2, 0]) ∧
      ∃ responses t', sendNodesResponse c () 16 0 kbuckets requester ⟨[1]⟩ [1, 2, 0] =
          some (responses, t') ∧
        ∃ chunks : List (List Unit),
          responses = chunks.map (fun nodes => ⟨⟨[1]⟩, .nodes (UInt64.ofNat chunks.length) nodes⟩) ∧
          () ∈ chunks.flatten ∧
          (checkNodesDistances (fun _ => KBucketsTable.zeroNodeId) kbuckets.localKey [1, 2, 0]
            chunks.flatten).2 = true ∧
          ∃ nodes ∈ chunks, () ∈ nodes ∧
            (checkNodesDistances (fun _ => KBucketsTable.zeroNodeId) kbuckets.localKey [1, 2, 0]
              nodes).2 = true := by
  intro kbuckets c requester
  have hinv : kbuckets.Inv := KBucketsTable.Inv.new _ _ _ _ _
  have hd : log2Distance kbuckets.localKey KBucketsTable.oneNodeId = some 1 :=
    bucketIndex_new_eq_some_iff.mp KBucketsTable.bucketIndex_zeroNodeId_oneNodeId
  exact ⟨hinv, rfl, hd, findnode_distance_one_bans c (fun _ => KBucketsTable.zeroNodeId) () 16 0 hinv rfl
    requester ⟨[1]⟩ hd⟩

end Discv5.Service
