import Mathlib
import Discv5.Kbucket.TableNodes
import Discv5.Rpc.Message
import Discv5.Packet.Basic
import Discv5.NodeInfo
import Discv5.Lib.Chunking

/-!
# Answering FINDNODE

`Service::send_nodes_response` of `src/service.rs`. The responder sorts and
deduplicates the distances it was asked for, answers distance 0 with its
own record, and the other distances with the records `nodes_by_distances`
finds in its routing table, the requester's own excepted
(`findNodesToSend`). It then packs the records into NODES responses:
a record joins the current response while the records of the response
stay below `MAX_PACKET_SIZE - 104` bytes, and opens a new one otherwise
(`packEnr`); every response carries the number of responses as its total
(`nodesResponses`).

The packing loop keeps `to_send_nodes` as the finished chunks and the
current one, with `rpc_index` pointing at the current one and `total_size`
its size (`Packing.Shaped`). From that one step lemma follow the two facts
about every run: the chunks concatenate to the records
(`nodesResponses_flatten`), and when every record is below the budget they
are a `Chunking` of them (`nodesResponses_chunking`).
-/

namespace Discv5.Service

open Rust Kbucket

variable {Enr : Type}

/-! ## The packing loop -/

/-- The state of the packing loop of `send_nodes_response`. -/
structure Packing (Enr : Type) where
  toSendNodes : List (List Enr)
  totalSize : Nat
  rpcIndex : Nat

/-- `MAX_PACKET_SIZE - 104`: the room the loop leaves the records of one
response, after its estimate of 104 bytes for the rest of the packet. -/
def recordBudget : Nat := maxPacketSize - 104

/-- One turn of the packing loop, for the record `enr`. The sizes are
`usize` sums of at most a few thousand bytes, so they do not wrap. -/
def packEnr (c : EnrCodec Enr) (p : Packing Enr) (enr : Enr) : Packing Enr :=
  let entrySize := (c.encode enr).length
  if entrySize + p.totalSize < recordBudget then
    { p with totalSize := p.totalSize + entrySize,
             toSendNodes := p.toSendNodes.modify p.rpcIndex (· ++ [enr]) }
  else
    { toSendNodes := p.toSendNodes ++ [[enr]], totalSize := entrySize, rpcIndex := p.rpcIndex + 1 }

/-- The packing loop over `nodes_to_send`, from one empty response. -/
def packNodes (c : EnrCodec Enr) (nodesToSend : List Enr) : Packing Enr :=
  nodesToSend.foldl (packEnr c) ⟨[[]], 0, 0⟩

/-- The responses `send_nodes_response` sends: one empty NODES of total 1
when there is nothing to send, else one per chunk, each with the number of
chunks as its total. -/
def nodesResponses (c : EnrCodec Enr) (rpcId : RequestId) (nodesToSend : List Enr) :
    List (Response Enr) :=
  if nodesToSend.isEmpty then [⟨rpcId, .nodes 1 []⟩]
  else
    let p := packNodes c nodesToSend
    p.toSendNodes.map fun nodes => ⟨rpcId, .nodes (UInt64.ofNat (p.rpcIndex + 1)) nodes⟩

/-- The packing loop reads the record codec only through the lengths of the
encodings: two codecs that agree on them give the same responses. -/
theorem nodesResponses_congr {c c' : EnrCodec Enr} (h : ∀ e, (c.encode e).length = (c'.encode e).length)
    (rpcId : RequestId) (nodesToSend : List Enr) :
    nodesResponses c rpcId nodesToSend = nodesResponses c' rpcId nodesToSend := by
  have hpack : packEnr c = packEnr c' := by
    funext p enr
    simp only [packEnr, h]
  simp only [nodesResponses, packNodes, hpack]

/-! ## The records to send -/

section Send

variable (c : EnrCodec Enr) (localEnr : Enr) (maxNodesResponse now : Nat)

/-- The first half of `send_nodes_response`: `nodes_to_send`, and the table
in which `nodes_by_distances` applied pending nodes. The distances are
sorted (`sort_unstable` of integers has one result) and deduplicated; a
leading 0 is answered with our own record; the other distances go to
`nodes_by_distances`, whose records of the requester are dropped. -/
def findNodesToSend (kbuckets : KBucketsTable Enr) (nodeAddress : NodeAddress)
    (distances : List UInt64) : Option (List Enr × KBucketsTable Enr) := do
  let distances := (distances.insertionSort (· ≤ ·)).destutter (· ≠ ·)
  let (nodesToSend, distances) :=
    if distances.head? = some 0 then ([localEnr], distances.tail) else ([], distances)
  if !distances.isEmpty then
    let (entries, kbuckets) ←
      kbuckets.nodesByDistances (distances.map UInt64.toNat) maxNodesResponse now
    pure (nodesToSend ++ entries.filterMap (fun entry =>
      if entry.key ≠ nodeAddress.nodeId then some entry.value else none), kbuckets)
  else pure (nodesToSend, kbuckets)

/-- `Service::send_nodes_response`: the NODES responses sent to
`nodeAddress`, in order, and the routing table after the call. -/
def sendNodesResponse (kbuckets : KBucketsTable Enr) (nodeAddress : NodeAddress) (rpcId : RequestId)
    (distances : List UInt64) : Option (List (Response Enr) × KBucketsTable Enr) := do
  let (nodesToSend, kbuckets) ← findNodesToSend localEnr maxNodesResponse now kbuckets nodeAddress distances
  pure (nodesResponses c rpcId nodesToSend, kbuckets)

end Send

/-! ## What the packing loop keeps -/

namespace Packing

variable {c : EnrCodec Enr}

/-- `to_send_nodes` is the finished chunks `done` and the current chunk
`cur`, `rpc_index` points at `cur` and `total_size` is its size. -/
structure Shaped (c : EnrCodec Enr) (p : Packing Enr) (done : List (List Enr)) (cur : List Enr) :
    Prop where
  toSendNodes_eq : p.toSendNodes = done ++ [cur]
  rpcIndex_eq : p.rpcIndex = done.length
  totalSize_eq : p.totalSize = Chunking.weight (fun e => (c.encode e).length) cur

/-- The one step of the loop: a record that fits extends the current chunk,
any other closes it and opens a chunk of its own. -/
theorem Shaped.packEnr {p : Packing Enr} {done : List (List Enr)} {cur : List Enr}
    (h : p.Shaped c done cur) (enr : Enr) :
    ((c.encode enr).length + Chunking.weight (fun e => (c.encode e).length) cur < recordBudget ∧
        (Service.packEnr c p enr).Shaped c done (cur ++ [enr])) ∨
      (recordBudget ≤ (c.encode enr).length + Chunking.weight (fun e => (c.encode e).length) cur ∧
        (Service.packEnr c p enr).Shaped c (done ++ [cur]) [enr]) := by
  obtain ⟨hp, hi, ht⟩ := h
  by_cases hfit : (c.encode enr).length + p.totalSize < recordBudget
  · refine .inl ⟨ht ▸ hfit, ?_, ?_, ?_⟩
    · simp only [Service.packEnr, hfit, if_true, hp, hi, Chunking.modify_append_length]
    · simp only [Service.packEnr, hfit, if_true, hi]
    · simp only [Service.packEnr, hfit, if_true]
      rw [ht, Chunking.weight_append, Chunking.weight_singleton]
  · refine .inr ⟨by omega, ?_, ?_, ?_⟩
    · simp only [Service.packEnr, hfit, if_false, hp]
    · simp only [Service.packEnr, hfit, if_false, hi, List.length_append, List.length_singleton]
    · simp only [Service.packEnr, hfit, if_false, Chunking.weight_singleton]

/-- Over any run the chunks concatenate to what was there and the records
packed. -/
theorem Shaped.foldl {p : Packing Enr} {done : List (List Enr)} {cur : List Enr}
    (h : p.Shaped c done cur) (rest : List Enr) :
    ∃ done' cur', (rest.foldl (Service.packEnr c) p).Shaped c done' cur' ∧
      (done' ++ [cur']).flatten = (done ++ [cur]).flatten ++ rest := by
  induction rest generalizing p done cur with
  | nil => exact ⟨done, cur, h, by simp⟩
  | cons enr rest ih =>
    rcases h.packEnr enr with ⟨-, h'⟩ | ⟨-, h'⟩
    · obtain ⟨done', cur', h'', hflat⟩ := ih h'
      exact ⟨done', cur', h'', by simp [hflat]⟩
    · obtain ⟨done', cur', h'', hflat⟩ := ih h'
      exact ⟨done', cur', h'', by simp [hflat]⟩

/-- Over a run of records below the budget the chunks stay a chunking of
the records packed. -/
theorem Shaped.foldl_chunking {p : Packing Enr} {done : List (List Enr)} {cur : List Enr}
    {pushed : List Enr} (h : p.Shaped c done cur)
    (hc : Chunking (fun e => (c.encode e).length) recordBudget pushed (done ++ [cur])) (rest : List Enr)
    (hrest : ∀ e ∈ rest, (c.encode e).length < recordBudget) :
    ∃ done' cur', (rest.foldl (Service.packEnr c) p).Shaped c done' cur' ∧
      Chunking (fun e => (c.encode e).length) recordBudget (pushed ++ rest) (done' ++ [cur']) := by
  induction rest generalizing p done cur pushed with
  | nil => exact ⟨done, cur, h, by simpa using hc⟩
  | cons enr rest ih =>
    have hrest' : ∀ e ∈ rest, (c.encode e).length < recordBudget :=
      fun e he => hrest e (List.mem_cons_of_mem _ he)
    have happ : pushed ++ enr :: rest = (pushed ++ [enr]) ++ rest := by simp
    rw [happ]
    rcases h.packEnr enr with ⟨hfit, h'⟩ | ⟨-, h'⟩
    · exact ih h' (hc.extend (by omega)) hrest'
    · exact ih h' (hc.push (hrest enr List.mem_cons_self)) hrest'

/-- The first record goes into the empty first response when it fits. -/
theorem packEnr_start {enr : Enr} (h : (c.encode enr).length < recordBudget) :
    (Service.packEnr c ⟨[[]], 0, 0⟩ enr).Shaped c [] [enr] := by
  refine ⟨?_, ?_, ?_⟩ <;> simp [Service.packEnr, h, Chunking.weight]

end Packing

/-- Whatever the records' sizes, the responses' records concatenate to the
records to send, and each response's total is the number of responses. -/
theorem nodesResponses_flatten (c : EnrCodec Enr) (rpcId : RequestId) (nodesToSend : List Enr) :
    ∃ chunks : List (List Enr), nodesResponses c rpcId nodesToSend =
        chunks.map (fun nodes => ⟨rpcId, .nodes (UInt64.ofNat chunks.length) nodes⟩) ∧
      chunks.flatten = nodesToSend := by
  by_cases hne : nodesToSend = []
  · -- nothing to send: one empty response
    subst hne
    exact ⟨[[]], rfl, rfl⟩
  have hstart : (⟨[[]], 0, 0⟩ : Packing Enr).Shaped c [] [] := ⟨rfl, rfl, rfl⟩
  obtain ⟨done, cur, hs, hflat⟩ := hstart.foldl nodesToSend
  refine ⟨done ++ [cur], ?_, by simpa using hflat⟩
  have hlen : (packNodes c nodesToSend).rpcIndex + 1 = (done ++ [cur]).length := by
    simp [packNodes, hs.rpcIndex_eq]
  simp only [nodesResponses, List.isEmpty_iff, hne, if_false, hlen]
  rw [show (packNodes c nodesToSend).toSendNodes = done ++ [cur] from hs.toSendNodes_eq]

/-- When every record is below the budget, the responses are a chunking of
the records to send: non-empty, each below the budget, in order. -/
theorem nodesResponses_chunking (c : EnrCodec Enr) (rpcId : RequestId) {nodesToSend : List Enr}
    (hne : nodesToSend ≠ []) (hsize : ∀ e ∈ nodesToSend, (c.encode e).length < recordBudget) :
    ∃ chunks : List (List Enr), nodesResponses c rpcId nodesToSend =
        chunks.map (fun nodes => ⟨rpcId, .nodes (UInt64.ofNat chunks.length) nodes⟩) ∧
      Chunking (fun e => (c.encode e).length) recordBudget nodesToSend chunks := by
  obtain ⟨enr, rest, rfl⟩ := List.exists_cons_of_ne_nil hne
  have hstart := Packing.packEnr_start (hsize enr List.mem_cons_self)
  obtain ⟨done, cur, hs, hc⟩ := hstart.foldl_chunking (Chunking.singleton (hsize enr List.mem_cons_self))
    rest fun e he => hsize e (List.mem_cons_of_mem _ he)
  refine ⟨done ++ [cur], ?_, by simpa using hc⟩
  have hfold : packNodes c (enr :: rest) = rest.foldl (packEnr c) (packEnr c ⟨[[]], 0, 0⟩ enr) := rfl
  have hlen : (packNodes c (enr :: rest)).rpcIndex + 1 = (done ++ [cur]).length := by
    simp [hfold, hs.rpcIndex_eq]
  simp only [nodesResponses, List.isEmpty_cons, if_false, hlen, Bool.false_eq_true]
  rw [show (packNodes c (enr :: rest)).toSendNodes = done ++ [cur] by rw [hfold]; exact hs.toSendNodes_eq]

/-! ## What the responder sends -/

section Spec

variable {c : EnrCodec Enr} {localEnr : Enr} {maxNodesResponse now : Nat}

/-- `findNodesToSend` with the records of distance 0 (`own`) and the
distances left for the table (`rest`) named. -/
theorem findNodesToSend_eq (kbuckets : KBucketsTable Enr) (nodeAddress : NodeAddress)
    (distances : List UInt64) :
    findNodesToSend localEnr maxNodesResponse now kbuckets nodeAddress distances =
      let sorted := (distances.insertionSort (· ≤ ·)).destutter (· ≠ ·)
      let own := if sorted.head? = some 0 then [localEnr] else []
      let rest := if sorted.head? = some 0 then sorted.tail else sorted
      if rest = [] then some (own, kbuckets)
      else (kbuckets.nodesByDistances (rest.map UInt64.toNat) maxNodesResponse now).map fun r =>
        (own ++ r.1.filterMap (fun entry =>
          if entry.key ≠ nodeAddress.nodeId then some entry.value else none), r.2) := by
  unfold findNodesToSend
  by_cases h0 : ((distances.insertionSort (· ≤ ·)).destutter (· ≠ ·)).head? = some 0 <;>
    simp only [h0, if_true, if_false] <;> split <;> simp_all [Option.map_eq_bind]

/-- The distances the responder looks up were asked for. -/
theorem mem_of_mem_sorted {distances : List UInt64} {d : UInt64}
    (h : d ∈ (distances.insertionSort (· ≤ ·)).destutter (· ≠ ·)) : d ∈ distances :=
  (List.perm_insertionSort _ distances).subset ((List.destutter_sublist _ _).subset h)

/-- Deduplicating keeps the first element. -/
theorem head?_destutter' {α : Type} {R : α → α → Prop} [DecidableRel R] (a : α) :
    ∀ l : List α, (l.destutter' R a).head? = some a
  | [] => rfl
  | b :: l => by
    rw [List.destutter'_cons]
    split
    · rfl
    · exact head?_destutter' a l

/-- Sorting puts a requested distance 0 first. -/
theorem head?_sorted_of_zero_mem {distances : List UInt64} (h0 : (0 : UInt64) ∈ distances) :
    ((distances.insertionSort (· ≤ ·)).destutter (· ≠ ·)).head? = some 0 := by
  have hsorted := List.pairwise_insertionSort (· ≤ ·) distances
  have hmem : (0 : UInt64) ∈ distances.insertionSort (· ≤ ·) := List.mem_insertionSort _ |>.mpr h0
  obtain ⟨a, rest, hcons⟩ := List.exists_cons_of_ne_nil (List.ne_nil_of_mem hmem)
  rw [hcons] at hsorted hmem
  -- the first of a sorted list containing 0 is at most 0
  have ha : a = 0 := by
    rcases List.mem_cons.mp hmem with h | h
    · exact h.symm
    · have hle := UInt64.le_iff_toNat_le.mp (List.rel_of_pairwise_cons hsorted h)
      exact UInt64.toNat_inj.mp (by simp at hle ⊢; omega)
  rw [hcons, ha, List.destutter_cons']
  exact head?_destutter' 0 rest

/-- What `findNodesToSend` can do: answer with our own record exactly when
distance 0 was asked for (`own`), and hand the other distances asked for
(`rest`), if there are any, to `nodes_by_distances`. -/
theorem findNodesToSend_cases (localEnr : Enr) (maxNodesResponse now : Nat)
    (kbuckets : KBucketsTable Enr) (nodeAddress : NodeAddress) (distances : List UInt64) :
    ∃ own rest, (own = [localEnr] ∧ (0 : UInt64) ∈ distances ∨ own = [] ∧ (0 : UInt64) ∉ distances) ∧
      (∀ d ∈ rest, d ∈ distances) ∧
      findNodesToSend localEnr maxNodesResponse now kbuckets nodeAddress distances =
        if rest = [] then some (own, kbuckets)
        else (kbuckets.nodesByDistances (rest.map UInt64.toNat) maxNodesResponse now).map fun r =>
          (own ++ r.1.filterMap (fun entry =>
            if entry.key ≠ nodeAddress.nodeId then some entry.value else none), r.2) := by
  set sorted := (distances.insertionSort (· ≤ ·)).destutter (· ≠ ·) with hsorted
  refine ⟨if sorted.head? = some 0 then [localEnr] else [],
    if sorted.head? = some 0 then sorted.tail else sorted, ?_, ?_, findNodesToSend_eq _ _ _⟩
  · by_cases h0 : (0 : UInt64) ∈ distances
    · exact .inl ⟨by simp [hsorted, head?_sorted_of_zero_mem h0], h0⟩
    · -- the first distance looked up was asked for, so it is not 0
      have hhead : sorted.head? ≠ some 0 := fun h => h0 (mem_of_mem_sorted (List.mem_of_head? h))
      exact .inr ⟨by simp [hhead], h0⟩
  · intro d hd
    refine mem_of_mem_sorted ?_
    split at hd
    · exact List.mem_of_mem_tail hd
    · exact hd

/-- What `findNodesToSend` returns: our own record, only for a request of
distance 0, and records of table nodes at a requested distance in
`[1, 256]` other than the requester, read in the table it leaves, which
keeps the table invariant, the local key and every property `Q` of nodes. -/
theorem mem_findNodesToSend {kbuckets : KBucketsTable Enr} (hinv : kbuckets.Inv)
    {Q : Node NodeId Enr → Prop} (hsat : kbuckets.NodesSat Q) {nodeAddress : NodeAddress}
    {distances : List UInt64} {nodes : List Enr} {t' : KBucketsTable Enr}
    (h : findNodesToSend localEnr maxNodesResponse now kbuckets nodeAddress distances = some (nodes, t')) :
    t'.NodesSat Q ∧ t'.Inv ∧ t'.localKey = kbuckets.localKey ∧
      ∀ e ∈ nodes, (e = localEnr ∧ (0 : UInt64) ∈ distances) ∨
        ∃ d ∈ distances, 0 < d.toNat ∧ d.toNat ≤ numBuckets ∧
          ∃ n ∈ t'.nodesAtDistance d.toNat, n.key ≠ nodeAddress.nodeId ∧ n.value = e := by
  obtain ⟨own, rest, hown, hrest, heq⟩ := findNodesToSend_cases localEnr
    maxNodesResponse now kbuckets nodeAddress distances
  have hownSpec : ∀ e ∈ own, e = localEnr ∧ (0 : UInt64) ∈ distances := by
    rcases hown with ⟨rfl, h0⟩ | ⟨rfl, -⟩
    · exact fun e he => ⟨List.mem_singleton.mp he, h0⟩
    · exact fun e he => absurd he List.not_mem_nil
  rw [heq] at h
  split at h
  · simp only [Option.some.injEq, Prod.mk.injEq] at h
    obtain ⟨rfl, rfl⟩ := h
    exact ⟨hsat, hinv, rfl, fun e he => .inl (hownSpec e he)⟩
  · obtain ⟨⟨entries, t''⟩, hr, heq⟩ := Option.map_eq_some_iff.mp h
    simp only [Prod.mk.injEq] at heq
    obtain ⟨rfl, rfl⟩ := heq
    obtain ⟨hsat', hinv', hkey', hmem⟩ := KBucketsTable.NodesSat.nodesByDistances hinv hsat hr
    refine ⟨hsat', hinv', hkey', fun e he => ?_⟩
    rcases List.mem_append.mp he with he | he
    · exact .inl (hownSpec e he)
    · obtain ⟨n, hn, hne⟩ := List.mem_filterMap.mp he
      obtain ⟨d, hd, hd0, hd256, hnd⟩ := hmem n hn
      obtain ⟨x, hx, rfl⟩ := List.mem_map.mp hd
      split at hne
      · rename_i hkey
        exact .inr ⟨x, hrest x hx, hd0, hd256, n, hnd, hkey, Option.some.inj hne⟩
      · cases hne

/-- A request holding distance 0 is answered with our own record. -/
theorem self_mem_findNodesToSend {kbuckets : KBucketsTable Enr} {nodeAddress : NodeAddress}
    {distances : List UInt64} (h0 : (0 : UInt64) ∈ distances) {nodes : List Enr}
    {t' : KBucketsTable Enr}
    (h : findNodesToSend localEnr maxNodesResponse now kbuckets nodeAddress distances = some (nodes, t')) :
    localEnr ∈ nodes := by
  obtain ⟨own, rest, hown, -, heq⟩ := findNodesToSend_cases localEnr
    maxNodesResponse now kbuckets nodeAddress distances
  obtain ⟨rfl, -⟩ := hown.resolve_right fun h => h.2 h0
  rw [heq] at h
  split at h
  · simp only [Option.some.injEq, Prod.mk.injEq] at h
    simp [← h.1]
  · obtain ⟨r, -, heq⟩ := Option.map_eq_some_iff.mp h
    simp only [Prod.mk.injEq] at heq
    simp [← heq.1]

theorem findNodesToSend_isSome {kbuckets : KBucketsTable Enr} (hinv : kbuckets.Inv)
    (nodeAddress : NodeAddress) (distances : List UInt64) :
    (findNodesToSend localEnr maxNodesResponse now kbuckets nodeAddress distances).isSome := by
  obtain ⟨own, rest, -, -, heq⟩ := findNodesToSend_cases localEnr
    maxNodesResponse now kbuckets nodeAddress distances
  rw [heq]
  split
  · rfl
  · -- whatever is left for the table, `nodes_by_distances` answers it
    obtain ⟨r, hr, -⟩ := hinv.nodesByDistances (rest.map UInt64.toNat) maxNodesResponse now
    simp [hr]

/-- At most `max_nodes_response` records come from the table, and ours. -/
theorem length_findNodesToSend_le {kbuckets : KBucketsTable Enr} (hinv : kbuckets.Inv)
    (hm : 0 < maxNodesResponse) {nodeAddress : NodeAddress} {distances : List UInt64}
    {nodes : List Enr} {t' : KBucketsTable Enr}
    (h : findNodesToSend localEnr maxNodesResponse now kbuckets nodeAddress distances = some (nodes, t')) :
    nodes.length ≤ maxNodesResponse + 1 := by
  obtain ⟨own, rest, hown, -, heq⟩ := findNodesToSend_cases localEnr
    maxNodesResponse now kbuckets nodeAddress distances
  have hlen : own.length ≤ 1 := by rcases hown with ⟨rfl, -⟩ | ⟨rfl, -⟩ <;> simp
  rw [heq] at h
  split at h
  · simp only [Option.some.injEq, Prod.mk.injEq] at h
    rw [← h.1]
    omega
  · obtain ⟨r, hr, heq⟩ := Option.map_eq_some_iff.mp h
    simp only [Prod.mk.injEq] at heq
    obtain ⟨t'', ht'', -, -⟩ := hinv.nodesByDistances_eq _ hm now
    rw [hr, Option.some.injEq] at ht''
    have htake : r.1.length ≤ maxNodesResponse := by rw [ht'']; exact List.length_take_le _ _
    rw [← heq.1, List.length_append]
    have := List.length_filterMap_le (fun entry : Node NodeId Enr =>
      if entry.key ≠ nodeAddress.nodeId then some entry.value else none) r.1
    omega

/-- `send_nodes_response` packs what `findNodesToSend` returns. -/
theorem sendNodesResponse_eq_some {kbuckets t' : KBucketsTable Enr} {nodeAddress : NodeAddress}
    {rpcId : RequestId} {distances : List UInt64} {responses : List (Response Enr)} :
    sendNodesResponse c localEnr maxNodesResponse now kbuckets nodeAddress rpcId distances =
        some (responses, t') ↔
      ∃ nodes, findNodesToSend localEnr maxNodesResponse now kbuckets nodeAddress distances =
          some (nodes, t') ∧ responses = nodesResponses c rpcId nodes := by
  simp only [sendNodesResponse, Option.bind_eq_bind, Option.pure_def, Option.bind_eq_some_iff,
    Option.some.injEq, Prod.mk.injEq, Prod.exists]
  constructor
  · rintro ⟨nodes, t'', h, rfl, rfl⟩
    exact ⟨nodes, h, rfl⟩
  · rintro ⟨nodes, h, rfl⟩
    exact ⟨nodes, t', h, rfl, rfl⟩

end Spec

end Discv5.Service
