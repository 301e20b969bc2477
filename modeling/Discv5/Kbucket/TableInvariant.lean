import Discv5.Kbucket.Closest
import Discv5.Kbucket.BucketInvariant

/-!
# The routing-table invariant

`KBucketsTable.Inv`: every bucket keeps `KBucket.Inv`, and every key stored
in bucket `i`, the pending one included, has bucket index `i`. Every table
operation returns and keeps it (`TableOp.apply_inv`), so along any run from
`KBucketsTable::new` (`TableOp.run_inv`) no `unreachable!` is met, nodes sit
in the bucket of their log2 distance, no key is in two buckets and the local
key is never stored.

`nodes_by_distances` is then the first `max_nodes` nodes of the requested
buckets for `max_nodes ≥ 1`; with `max_nodes = 0` it returns one node.
-/

namespace Discv5.Kbucket

variable {V : Type}

namespace KBucketsTable

/-- The routing-table invariant: every bucket keeps its own invariant, and
every key in bucket `i` (the pending one included) has bucket index `i`. -/
structure Inv (t : KBucketsTable V) : Prop where
  buckets : ∀ i, (t.buckets i).Inv
  placed : ∀ i, (t.buckets i).KeysSat fun k => t.bucketIndex k = some i

@[simp] theorem setBucket_buckets (t : KBucketsTable V) (i : Fin numBuckets) (b : KBucket NodeId V) :
    (t.setBucket i b).buckets = Function.update t.buckets i b := rfl

@[simp] theorem setBucket_localKey (t : KBucketsTable V) (i : Fin numBuckets) (b : KBucket NodeId V) :
    (t.setBucket i b).localKey = t.localKey := rfl

theorem bucketIndex_setBucket (t : KBucketsTable V) (i : Fin numBuckets) (b : KBucket NodeId V) :
    (t.setBucket i b).bucketIndex = t.bucketIndex := rfl

theorem Inv.new (localKey : NodeId) (pendingTimeout maxIncoming : Nat)
    (tableFilter bucketFilter : Option (Filter V)) :
    (KBucketsTable.new localKey pendingTimeout maxIncoming tableFilter bucketFilter).Inv :=
  ⟨fun _ => KBucket.Inv.new _ _ _, fun _ => ⟨by simp [KBucketsTable.new, KBucket.new],
    by simp [KBucketsTable.new, KBucket.new]⟩⟩

/-- Replacing bucket `i` by a bucket that keeps the invariant and holds only
keys of bucket index `i`. -/
theorem Inv.setBucket {t : KBucketsTable V} (h : t.Inv) {i : Fin numBuckets}
    {b : KBucket NodeId V} (hb : b.Inv) (hk : b.KeysSat fun k => t.bucketIndex k = some i) :
    (t.setBucket i b).Inv := by
  refine ⟨fun j => ?_, fun j => ?_⟩
  · by_cases hj : j = i
    · subst hj
      simpa using hb
    · simpa [hj] using h.buckets j
  · rw [bucketIndex_setBucket]
    by_cases hj : j = i
    · subst hj
      simpa using hk
    · simpa [hj] using h.placed j

theorem Inv.applyPendingAt {t : KBucketsTable V} (h : t.Inv) (i : Fin numBuckets) (now : Nat) :
    ∃ t', t.applyPendingAt i now = some t' ∧ t'.Inv ∧ t'.localKey = t.localKey := by
  obtain ⟨r, hr, hinv⟩ := (h.buckets i).applyPending now
  have h' := h.setBucket hinv ((h.placed i).applyPending hr)
  exact ⟨{ t.setBucket i r.2 with appliedPending := t.appliedPending ++ r.1.toList },
    by simp [KBucketsTable.applyPendingAt, hr], ⟨h'.buckets, h'.placed⟩, rfl⟩

theorem Inv.updateNodeStatus {t : KBucketsTable V} (h : t.Inv) (key : NodeId)
    (state : ConnectionState) (direction : Option ConnectionDirection) (now : Nat) :
    ∃ r, t.updateNodeStatus key state direction now = some r ∧ r.2.Inv ∧
      r.2.localKey = t.localKey := by
  unfold KBucketsTable.updateNodeStatus
  cases hi : t.bucketIndex key with
  | none => exact ⟨_, rfl, h, rfl⟩
  | some i =>
    obtain ⟨t₁, ht₁, h₁, hl₁⟩ := h.applyPendingAt i now
    obtain ⟨r, hr, hinv⟩ := (h₁.buckets i).updateStatus key state direction now
    exact ⟨(r.1, t₁.setBucket i r.2), by simp [ht₁, hr],
      h₁.setBucket hinv ((h₁.placed i).updateStatus hr), by simp [hl₁]⟩

theorem Inv.remove {t : KBucketsTable V} (h : t.Inv) (key : NodeId) (now : Nat) :
    ∃ r, t.remove key now = some r ∧ r.2.Inv ∧ r.2.localKey = t.localKey := by
  unfold KBucketsTable.remove
  cases hi : t.bucketIndex key with
  | none => exact ⟨_, rfl, h, rfl⟩
  | some i =>
    obtain ⟨t₁, ht₁, h₁, hl₁⟩ := h.applyPendingAt i now
    obtain ⟨r, hr, hinv⟩ := (h₁.buckets i).remove key now
    exact ⟨(r.1, t₁.setBucket i r.2), by simp [ht₁, hr],
      h₁.setBucket hinv ((h₁.placed i).remove hr), by simp [hl₁]⟩

section ValueEq

variable [DecidableEq V]

theorem Inv.updateNode {t : KBucketsTable V} (h : t.Inv) (key : NodeId) (value : V)
    (state : Option ConnectionState) (now : Nat) :
    ∃ r, t.updateNode key value state now = some r ∧ r.2.Inv ∧ r.2.localKey = t.localKey := by
  unfold KBucketsTable.updateNode
  cases hi : t.bucketIndex key with
  | none => exact ⟨_, rfl, h, rfl⟩
  | some i =>
    obtain ⟨t₁, ht₁, h₁, hl₁⟩ := h.applyPendingAt i now
    by_cases hp : t.passedTableFilter key value
    · obtain ⟨r, hr, hinv⟩ := (h₁.buckets i).updateValue key value
      have hk := (h₁.placed i).updateValue hr
      by_cases hf : r.1.failed?
      · exact ⟨(r.1, t₁.setBucket i r.2), by simp [ht₁, hp, hr, hf], h₁.setBucket hinv hk,
          by simp [hl₁]⟩
      · cases state with
        | none =>
          exact ⟨(updateNodeResult r.1 .notModified, t₁.setBucket i r.2),
            by simp [ht₁, hp, hr, hf], h₁.setBucket hinv hk, by simp [hl₁]⟩
        | some state =>
          obtain ⟨r₂, hr₂, hinv₂⟩ := hinv.updateStatus key state none now
          exact ⟨(updateNodeResult r.1 r₂.1, t₁.setBucket i r₂.2),
            by simp [ht₁, hp, hr, hf, hr₂], h₁.setBucket hinv₂ (hk.updateStatus hr₂), by simp [hl₁]⟩
    · obtain ⟨r, hr, hinv⟩ := (h₁.buckets i).remove key now
      exact ⟨(.failed .tableFilter, t₁.setBucket i r.2), by simp [ht₁, hp, hr],
        h₁.setBucket hinv ((h₁.placed i).remove hr), by simp [hl₁]⟩

theorem updateValue_ne_updatedAndPromoted {b : KBucket NodeId V} {key : NodeId} {value : V}
    {r : UpdateResult × KBucket NodeId V} (hr : b.updateValue key value = some r) :
    r.1 ≠ .updatedAndPromoted := by
  unfold KBucket.updateValue at hr
  split at hr
  · split at hr
    · cases hr
    · simp only at hr
      split_ifs at hr <;> (cases hr; simp)
  · split at hr
    · split at hr <;> (cases hr; simp)
    · cases hr
      simp

/-- The two `unreachable!` arms of `insert_or_update` are never reached once the
status update has not failed and the value update has not promoted. -/
theorem insertOrUpdateResult_isSome {updateValue updateStatus : UpdateResult}
    (hs : updateStatus.failed? = false) (hv : updateValue ≠ .updatedAndPromoted) :
    (insertOrUpdateResult updateValue updateStatus).isSome := by
  cases updateValue <;> cases updateStatus <;> simp_all [insertOrUpdateResult, UpdateResult.failed?]

theorem Inv.insertOrUpdate {t : KBucketsTable V} (h : t.Inv) (key : NodeId) (value : V)
    (status : NodeStatus) (now : Nat) :
    ∃ r, t.insertOrUpdate key value status now = some r ∧ r.2.Inv ∧ r.2.localKey = t.localKey := by
  unfold KBucketsTable.insertOrUpdate
  cases hi : t.bucketIndex key with
  | none => exact ⟨_, rfl, h, rfl⟩
  | some i =>
    obtain ⟨t₁, ht₁, h₁, hl₁⟩ := h.applyPendingAt i now
    have hi₁ : t₁.bucketIndex key = some i := by rw [← hi]; simp [bucketIndex, hl₁]
    by_cases hp : t.passedTableFilter key value
    swap
    · obtain ⟨r, hr, hinv⟩ := (h₁.buckets i).remove key now
      exact ⟨(.failed .tableFilter, t₁.setBucket i r.2), by simp [ht₁, hp, hr],
        h₁.setBucket hinv ((h₁.placed i).remove hr), by simp [hl₁]⟩
    by_cases hpos : ((t₁.buckets i).position key).isNone
    · -- the node is new: insert it; `NodeExists` cannot come back
      have hfresh : key ∉ (t₁.buckets i).nodes.map (·.key) :=
        KBucket.position_eq_none_iff.mp (Option.isNone_iff_eq_none.mp hpos)
      have hpos' : (t₁.buckets i).position key = none := Option.isNone_iff_eq_none.mp hpos
      have hne : ((t₁.buckets i).insert ⟨key, value, status⟩ now).1 ≠ .nodeExists :=
        KBucket.insert_ne_nodeExists_of_fresh hfresh now
      have hinv := (h₁.buckets i).insert ⟨key, value, status⟩ now
      have hk : ((t₁.buckets i).insert ⟨key, value, status⟩ now).2.KeysSat
          fun k => t₁.bucketIndex k = some i := (h₁.placed i).insert ⟨key, value, status⟩ hi₁ now
      rcases hins : (t₁.buckets i).insert ⟨key, value, status⟩ now with ⟨r, b⟩
      rw [hins] at hne hinv hk
      have hset := h₁.setBucket hinv hk
      have hl : (t₁.setBucket i b).localKey = t.localKey := by simp [hl₁]
      cases r with
      | inserted => exact ⟨(.inserted, t₁.setBucket i b), by simp [ht₁, hp, hpos', hins], hset, hl⟩
      | pending k => exact ⟨(.pending k, t₁.setBucket i b), by simp [ht₁, hp, hpos', hins], hset, hl⟩
      | failedFilter =>
        exact ⟨(.failed .bucketFilter, t₁.setBucket i b), by simp [ht₁, hp, hpos', hins], hset, hl⟩
      | tooManyIncoming =>
        exact ⟨(.failed .tooManyIncoming, t₁.setBucket i b), by simp [ht₁, hp, hpos', hins], hset,
          hl⟩
      | full =>
        exact ⟨(.failed .bucketFull, t₁.setBucket i b), by simp [ht₁, hp, hpos', hins], hset, hl⟩
      | nodeExists => exact absurd rfl hne
    · -- the node exists: update its status, then its value
      have hpos' : (t₁.buckets i).position key ≠ none := fun he => hpos (by simp [he])
      obtain ⟨r, hr, hinv⟩ := (h₁.buckets i).updateStatus key status.state (some status.direction) now
      have hk := (h₁.placed i).updateStatus hr
      by_cases hf : r.1.failed?
      · exact ⟨(.failed .tooManyIncoming, t₁.setBucket i r.2), by simp [ht₁, hp, hpos', hr, hf],
          h₁.setBucket hinv hk, by simp [hl₁]⟩
      · obtain ⟨r₂, hr₂, hinv₂⟩ := hinv.updateValue key value
        obtain ⟨x, hx⟩ := Option.isSome_iff_exists.mp
          (insertOrUpdateResult_isSome (Bool.eq_false_iff.mpr hf) (updateValue_ne_updatedAndPromoted hr₂))
        exact ⟨(x, t₁.setBucket i r₂.2), by simp [ht₁, hp, hpos', hr, hf, hr₂, hx],
          h₁.setBucket hinv₂ (hk.updateValue hr₂), by simp [hl₁]⟩

end ValueEq

theorem Inv.applyEntryOp {t : KBucketsTable V} (h : t.Inv) {key : NodeId} {i : Fin numBuckets}
    (hi : t.bucketIndex key = some i) (op : EntryOp V) (now : Nat) :
    ∃ t', t.applyEntryOp i key op now = some t' ∧ t'.Inv ∧ t'.localKey = t.localKey := by
  unfold KBucketsTable.applyEntryOp
  dsimp only
  split
  · rename_i state direction _
    obtain ⟨r, hr, hinv⟩ := (h.buckets i).updateStatus key state direction now
    exact ⟨_, by simp [hr], h.setBucket hinv ((h.placed i).updateStatus hr), rfl⟩
  · obtain ⟨r, hr, hinv⟩ := (h.buckets i).remove key now
    exact ⟨_, by simp [hr], h.setBucket hinv ((h.placed i).remove hr), rfl⟩
  · rename_i status _ _
    exact ⟨_, rfl, h.setBucket ((h.buckets i).updatePending status)
      ((h.placed i).updatePending status), rfl⟩
  · obtain ⟨r, hr, hinv⟩ := (h.buckets i).remove key now
    exact ⟨_, by simp [hr], h.setBucket hinv ((h.placed i).remove hr), rfl⟩
  · rename_i value status _ _
    exact ⟨_, rfl, h.setBucket ((h.buckets i).insert ⟨key, value, status⟩ now)
      ((h.placed i).insert ⟨key, value, status⟩ hi now), rfl⟩
  · exact ⟨t, rfl, h, rfl⟩

theorem Inv.entry {t : KBucketsTable V} (h : t.Inv) (key : NodeId) (op : EntryOp V) (now : Nat) :
    ∃ t', t.entry key op now = some t' ∧ t'.Inv ∧ t'.localKey = t.localKey := by
  unfold KBucketsTable.entry
  cases hi : t.bucketIndex key with
  | none => exact ⟨t, rfl, h, rfl⟩
  | some i =>
    obtain ⟨t₁, ht₁, h₁, hl₁⟩ := h.applyPendingAt i now
    -- the pending node applied, the key still falls in bucket `i`
    have hi₁ : t₁.bucketIndex key = some i := by rw [← hi]; simp [bucketIndex, hl₁]
    obtain ⟨t₂, ht₂, h₂, hl₂⟩ := h₁.applyEntryOp hi₁ op now
    exact ⟨t₂, by simp only [ht₁, ht₂, Option.bind_eq_bind, Option.bind_some], h₂, hl₂.trans hl₁⟩

theorem Inv.applyPendingForDistances (maxNodes now : Nat) :
    ∀ (distances : List Nat) {t : KBucketsTable V} (nodeCount : Nat), t.Inv →
      (∀ d ∈ distances, d - 1 < numBuckets) →
      ∃ t', applyPendingForDistances maxNodes now t nodeCount distances = some t' ∧ t'.Inv ∧
        t'.localKey = t.localKey
  | [], t, _, h, _ => ⟨t, rfl, h, rfl⟩
  | d :: ds, t, nodeCount, h, hds => by
    have hd : d - 1 < numBuckets := hds d (List.mem_cons_self ..)
    have hds' : ∀ d ∈ ds, d - 1 < numBuckets := fun d hm => hds d (List.mem_cons_of_mem _ hm)
    obtain ⟨r, hr, hinv⟩ := (h.buckets ⟨d - 1, hd⟩).applyPending now
    have h₁ := h.setBucket hinv ((h.placed _).applyPending hr)
    rcases r with ⟨_ | applied, b⟩
    · obtain ⟨t', ht', h', hl'⟩ :=
        Inv.applyPendingForDistances maxNodes now ds nodeCount h₁ hds'
      exact ⟨t', by simp only [KBucketsTable.applyPendingForDistances, hd, dite_true, hr, ht'],
        h', by simp [hl']⟩
    · have h₂ : KBucketsTable.Inv { t.setBucket ⟨d - 1, hd⟩ b with
          appliedPending := t.appliedPending ++ [applied] } := ⟨h₁.buckets, h₁.placed⟩
      by_cases hmax : maxNodes ≤ nodeCount + b.nodes.length
      · exact ⟨_, by simp only [KBucketsTable.applyPendingForDistances, hd, dite_true, hr, hmax,
          if_true], h₂, rfl⟩
      · obtain ⟨t', ht', h', hl'⟩ :=
          Inv.applyPendingForDistances maxNodes now ds (nodeCount + b.nodes.length) h₂ hds'
        exact ⟨t', by simp only [KBucketsTable.applyPendingForDistances, hd, dite_true, hr, hmax,
          if_false, ht'], h', by simp [hl']⟩

theorem findMatchingNodes_isSome (t : KBucketsTable V) (maxNodes : Nat) :
    ∀ (matching : List (Node NodeId V)) (distances : List Nat),
      (∀ d ∈ distances, d - 1 < numBuckets) → (t.findMatchingNodes maxNodes matching distances).isSome
  | _, [], _ => rfl
  | matching, d :: ds, hds => by
    have hd : d - 1 < numBuckets := hds d (List.mem_cons_self ..)
    simp only [findMatchingNodes, hd, dite_true]
    split
    · rfl
    · exact findMatchingNodes_isSome t maxNodes _ ds fun d hm => hds d (List.mem_cons_of_mem _ hm)

theorem Inv.nodesByDistances {t : KBucketsTable V} (h : t.Inv) (log2Distances : List Nat)
    (maxNodes now : Nat) :
    ∃ r, t.nodesByDistances log2Distances maxNodes now = some r ∧ r.2.Inv ∧
      r.2.localKey = t.localKey := by
  have hds : ∀ d ∈ log2Distances.filter (fun d => 0 < d && d ≤ numBuckets), d - 1 < numBuckets := by
    intro d hm
    simp only [List.mem_filter, Bool.and_eq_true, decide_eq_true_eq] at hm
    unfold numBuckets at hm ⊢
    omega
  obtain ⟨t', ht', h', hl'⟩ := Inv.applyPendingForDistances maxNodes now _ 0 h hds
  obtain ⟨m, hm⟩ := Option.isSome_iff_exists.mp (findMatchingNodes_isSome t' maxNodes [] _ hds)
  exact ⟨(m, t'), by simp only [KBucketsTable.nodesByDistances, ht', hm, Option.bind_eq_bind,
    Option.bind_some, Option.pure_def], h', hl'⟩

theorem Inv.takeAppliedPending {t : KBucketsTable V} (h : t.Inv) :
    t.takeAppliedPending.2.Inv ∧ t.takeAppliedPending.2.localKey = t.localKey := by
  unfold KBucketsTable.takeAppliedPending
  split
  · exact ⟨h, rfl⟩
  · exact ⟨⟨h.buckets, h.placed⟩, rfl⟩

theorem Inv.iter {t : KBucketsTable V} (h : t.Inv) (now : Nat) :
    ∃ r, t.iter now = some r ∧ r.2.Inv ∧ r.2.localKey = t.localKey := by
  -- the fold applies the pending node of one bucket after another
  suffices hfold : ∀ (l : List (Fin numBuckets)) (acc : List (Node NodeId V)) (t₀ : KBucketsTable V),
      t₀.Inv → ∃ r, l.foldlM (fun (x : List (Node NodeId V) × KBucketsTable V) i => do
          let t ← x.2.applyPendingAt i now
          pure (x.1 ++ (t.buckets i).nodes, t)) (acc, t₀) = some r ∧ r.2.Inv ∧
        r.2.localKey = t₀.localKey from hfold _ [] t h
  intro l
  induction l with
  | nil => exact fun acc t₀ h₀ => ⟨(acc, t₀), rfl, h₀, rfl⟩
  | cons i l ih =>
    intro acc t₀ h₀
    obtain ⟨t₁, ht₁, h₁, hl₁⟩ := h₀.applyPendingAt i now
    obtain ⟨r, hr, hinv, hl⟩ := ih (acc ++ (t₁.buckets i).nodes) t₁ h₁
    exact ⟨r, by simpa [List.foldlM_cons, ht₁] using hr, hinv, hl.trans hl₁⟩

end KBucketsTable

namespace ClosestIter

variable {Out : Type}

theorem next_inv (now : Nat) (it : ClosestIter V Out) (h : it.table.Inv) :
    ∃ r, it.next now = some r ∧ r.2.table.Inv ∧ r.2.table.localKey = it.table.localKey := by
  fun_induction ClosestIter.next it now with
  | case1 it k rest hiter => exact ⟨_, rfl, h, rfl⟩
  | case2 it hiter ih => exact ih h
  | case3 it hiter i bucketsIter hb hnone =>
    obtain ⟨t', ht', -⟩ := h.applyPendingAt i now
    rw [ht'] at hnone
    cases hnone
  | case4 it hiter i bucketsIter hb table htable v ih =>
    obtain ⟨t', ht', h', hl'⟩ := h.applyPendingAt i now
    rw [ht'] at htable
    cases htable
    obtain ⟨r, hr, hinv, hl⟩ := ih h'
    exact ⟨r, hr, hinv, hl.trans hl'⟩
  | case5 it hiter bucketsIter hb => exact ⟨_, rfl, h, rfl⟩

theorem take_inv (now : Nat) : ∀ (n : Nat) (it : ClosestIter V Out), it.table.Inv →
    ∃ r, it.take now n = some r ∧ r.2.table.Inv ∧ r.2.table.localKey = it.table.localKey
  | 0, it, h => ⟨_, rfl, h, rfl⟩
  | n + 1, it, h => by
    obtain ⟨⟨x, it₁⟩, hr, h₁, hl₁⟩ := next_inv now it h
    cases x with
    | none => exact ⟨([], it₁), by simp [take, hr], h₁, hl₁⟩
    | some x =>
      obtain ⟨⟨xs, it₂⟩, hr₂, h₂, hl₂⟩ := take_inv now n it₁ h₁
      exact ⟨(x :: xs, it₂), by simp [take, hr, hr₂], h₂, hl₂.trans hl₁⟩

end ClosestIter
namespace KBucketsTable

/-- The nodes of the bucket of log2 distance `d` (none if `d` is out of range). -/
def nodesAtDistance (t : KBucketsTable V) (d : Nat) : List (Node NodeId V) :=
  if h : d - 1 < numBuckets then (t.buckets ⟨d - 1, h⟩).nodes else []

/-- The inner loop stops exactly when it reaches `max_nodes`, given that it
starts below. -/
theorem pushMatchingNodes_eq (maxNodes : Nat) :
    ∀ (matching nodes : List (Node NodeId V)), matching.length < maxNodes →
      pushMatchingNodes maxNodes matching nodes =
        if maxNodes ≤ matching.length + nodes.length then ((matching ++ nodes).take maxNodes, true)
        else (matching ++ nodes, false)
  | matching, [], h => by simp [pushMatchingNodes, Nat.not_le.mpr h]
  | matching, n :: ns, h => by
    by_cases hm : maxNodes ≤ (matching ++ [n]).length
    · have heq : maxNodes = matching.length + 1 := by simp at hm; omega
      have htake : (matching ++ n :: ns).take maxNodes = matching ++ [n] := by
        rw [heq, List.take_append, List.take_of_length_le (by omega)]
        simp
      simp only [pushMatchingNodes, hm, if_true]
      rw [if_pos (by simp; omega), htake]
    · have hlt : (matching ++ [n]).length < maxNodes := Nat.lt_of_not_le hm
      have hlen : (matching ++ [n]).length + ns.length = matching.length + (n :: ns).length := by
        simp
        omega
      have happ : matching ++ [n] ++ ns = matching ++ n :: ns := by simp
      simp only [pushMatchingNodes, hm, if_false, pushMatchingNodes_eq maxNodes _ ns hlt, hlen, happ]

/-- With `max_nodes ≥ 1` the second loop of `nodes_by_distances` returns the
first `max_nodes` nodes of the buckets in the order of the distances. -/
theorem findMatchingNodes_eq (t : KBucketsTable V) (maxNodes : Nat) :
    ∀ (matching : List (Node NodeId V)) (distances : List Nat), matching.length < maxNodes →
      (∀ d ∈ distances, d - 1 < numBuckets) →
      t.findMatchingNodes maxNodes matching distances =
        some ((matching ++ distances.flatMap t.nodesAtDistance).take maxNodes)
  | matching, [], h, _ => by simp [findMatchingNodes, List.take_of_length_le (Nat.le_of_lt h)]
  | matching, d :: ds, h, hds => by
    have hd : d - 1 < numBuckets := hds d (List.mem_cons_self ..)
    have hds' : ∀ d ∈ ds, d - 1 < numBuckets := fun d hm => hds d (List.mem_cons_of_mem _ hm)
    have hnd : t.nodesAtDistance d = (t.buckets ⟨d - 1, hd⟩).nodes := by simp [nodesAtDistance, hd]
    simp only [findMatchingNodes, hd, dite_true, pushMatchingNodes_eq maxNodes _ _ h]
    split_ifs with hm
    · have key : (matching ++ (t.buckets ⟨d - 1, hd⟩).nodes ++ ds.flatMap t.nodesAtDistance).take
          maxNodes = (matching ++ (t.buckets ⟨d - 1, hd⟩).nodes).take maxNodes :=
        List.take_append_of_le_length (by simpa using hm)
      rw [List.flatMap_cons, hnd, ← List.append_assoc, key]
    · dsimp only
      rw [findMatchingNodes_eq t maxNodes _ ds (by simpa using Nat.lt_of_not_le hm) hds',
        List.flatMap_cons, hnd, List.append_assoc]

/-- A node of the bucket of distance `d` is at log2 distance `d`. -/
theorem mem_nodesAtDistance {t : KBucketsTable V} (h : t.Inv) {d : Nat} (hd1 : 1 ≤ d)
    {n : Node NodeId V} (hn : n ∈ t.nodesAtDistance d) :
    d ≤ numBuckets ∧ log2Distance t.localKey n.key = some d := by
  unfold nodesAtDistance at hn
  split at hn
  · rename_i hd
    have hlog := bucketIndex_new_eq_some_iff.mp ((h.placed ⟨d - 1, hd⟩).nodes n hn)
    refine ⟨by unfold numBuckets at hd ⊢; omega, ?_⟩
    simpa [Nat.sub_add_cancel hd1] using hlog
  · cases hn

/-- `nodes_by_distances` with `max_nodes ≥ 1` returns the first `max_nodes` nodes
of the buckets `d - 1` for the distances `d` in `[1, 256]`, in their order, as
the buckets are once the pending nodes have been applied. -/
theorem Inv.nodesByDistances_eq {t : KBucketsTable V} (h : t.Inv) (log2Distances : List Nat)
    {maxNodes : Nat} (hm : 0 < maxNodes) (now : Nat) :
    ∃ t', t.nodesByDistances log2Distances maxNodes now =
        some (((log2Distances.filter fun d => 0 < d && d ≤ numBuckets).flatMap
          t'.nodesAtDistance).take maxNodes, t') ∧ t'.Inv ∧ t'.localKey = t.localKey := by
  have hds : ∀ d ∈ log2Distances.filter (fun d => 0 < d && d ≤ numBuckets), d - 1 < numBuckets := by
    intro d hm
    simp only [List.mem_filter, Bool.and_eq_true, decide_eq_true_eq] at hm
    unfold numBuckets at hm ⊢
    omega
  obtain ⟨t', ht', h', hl'⟩ := Inv.applyPendingForDistances maxNodes now _ 0 h hds
  refine ⟨t', ?_, h', hl'⟩
  simp only [KBucketsTable.nodesByDistances, ht', findMatchingNodes_eq t' maxNodes [] _ hm hds,
    Option.bind_eq_bind, Option.bind_some, Option.pure_def, List.nil_append]

theorem setBucket_self (t : KBucketsTable V) (i : Fin numBuckets) : t.setBucket i (t.buckets i) = t := by
  simp [setBucket]

theorem applyPendingAt_of_pending_none {t : KBucketsTable V} {i : Fin numBuckets}
    (hp : (t.buckets i).pending = none) (now : Nat) : t.applyPendingAt i now = some t := by
  simp [applyPendingAt, Kbucket.KBucket.applyPending_of_pending_none hp, setBucket_self]

/-- With `max_nodes = 0`, `nodes_by_distances` still returns the first node of
the first requested bucket: the node is pushed before the length is compared
with `max_nodes`. -/
theorem nodesByDistances_max_zero {t : KBucketsTable V} {d : Nat} (hd : d - 1 < numBuckets)
    (hd1 : 0 < d) {n : Node NodeId V} {ns : List (Node NodeId V)}
    (hn : (t.buckets ⟨d - 1, hd⟩).nodes = n :: ns) (hp : (t.buckets ⟨d - 1, hd⟩).pending = none)
    (now : Nat) : t.nodesByDistances [d] 0 now = some ([n], t) := by
  have hfilter : [d].filter (fun d => 0 < d && d ≤ numBuckets) = [d] := by
    have : d ≤ numBuckets := by unfold numBuckets at hd ⊢; omega
    simp [hd1, this]
  simp [nodesByDistances, hfilter, applyPendingForDistances, hd,
    Kbucket.KBucket.applyPending_of_pending_none hp, setBucket_self, findMatchingNodes, hn, pushMatchingNodes]

/-- The local key of the run below: all zeros. -/
def zeroNodeId : NodeId := ⟨⟨List.replicate 32 0, rfl⟩⟩

/-- A key at log2 distance 1 from `zeroNodeId`: only its last bit is set. -/
def oneNodeId : NodeId := ⟨⟨List.replicate 31 0 ++ [1], rfl⟩⟩

/-- A key in bucket 1 from `zeroNodeId`. -/
def twoNodeId : NodeId := ⟨⟨List.replicate 31 0 ++ [2], rfl⟩⟩


theorem bucketIndex_zeroNodeId_oneNodeId :
    BucketIndex.new (distance zeroNodeId oneNodeId) = some ⟨0, by decide⟩ := by
  have hd : distance zeroNodeId oneNodeId = ⟨1#256⟩ := by decide
  rw [bucketIndex_new_eq, hd]
  simpa using @Nat.log2_two_pow 0

/-- The table after inserting `oneNodeId`, connected, into a new table of
`zeroNodeId` with the service's parameters. -/
def oneNodeTable : KBucketsTable Unit :=
  (KBucketsTable.new zeroNodeId 60 maxNodesPerBucket none none).setBucket ⟨0, numBuckets_pos⟩
    ⟨[⟨oneNodeId, (), ⟨.outgoing, .connected⟩⟩], some 0, none, 60, none, maxNodesPerBucket⟩

theorem insertOrUpdate_oneNodeId :
    (KBucketsTable.new zeroNodeId 60 maxNodesPerBucket none none).insertOrUpdate oneNodeId ()
      ⟨.outgoing, .connected⟩ 0 = some (.inserted, oneNodeTable) := by
  simp [KBucketsTable.insertOrUpdate, KBucketsTable.bucketIndex,
    bucketIndex_zeroNodeId_oneNodeId, KBucketsTable.passedTableFilter, KBucketsTable.new,
    KBucketsTable.applyPendingAt, KBucket.applyPending, KBucket.new, KBucket.position,
    KBucket.insert, KBucket.passesFilter, NodeStatus.isIncoming, maxNodesPerBucket,
    KBucketsTable.setBucket, KBucket.isMaxIncoming, KBucket.numIncoming, oneNodeTable]

theorem oneNodeTable_bucket_zero :
    oneNodeTable.buckets ⟨0, by decide⟩ =
      ⟨[⟨oneNodeId, (), ⟨.outgoing, .connected⟩⟩], some 0, none, 60, none, maxNodesPerBucket⟩ := by
  simp [oneNodeTable, setBucket]

/-- The table above, reached by one `insert_or_update`, answers a request for
distance 1 with `max_nodes = 0` (`max_nodes_response(0)`) with its node. -/
theorem nodesByDistances_zero_returns_node :
    (KBucketsTable.new zeroNodeId 60 maxNodesPerBucket none none).insertOrUpdate oneNodeId ()
        ⟨.outgoing, .connected⟩ 0 = some (.inserted, oneNodeTable) ∧
      oneNodeTable.nodesByDistances [1] 0 0 =
        some ([⟨oneNodeId, (), ⟨.outgoing, .connected⟩⟩], oneNodeTable) :=
  ⟨insertOrUpdate_oneNodeId, nodesByDistances_max_zero (by decide) (by decide)
    (by rw [oneNodeTable_bucket_zero]) (by rw [oneNodeTable_bucket_zero]) 0⟩

end KBucketsTable

/-- The node id whose big-endian value is `n`. -/
def nodeIdOfNat (n : Nat) : NodeId := ⟨⟨Bytes.toBeBytes 32 n, Bytes.length_toBeBytes 32 n⟩⟩

/-- The operations of the routing table. The `closest_*` iterators are
consumed for `n` items; the table is what the iterator leaves behind. -/
inductive TableOp (V : Type) where
  | insertOrUpdate (key : NodeId) (value : V) (status : NodeStatus) (now : Nat)
  | updateNode (key : NodeId) (value : V) (state : Option ConnectionState) (now : Nat)
  | updateNodeStatus (key : NodeId) (state : ConnectionState)
      (direction : Option ConnectionDirection) (now : Nat)
  | remove (key : NodeId) (now : Nat)
  | entry (key : NodeId) (op : KBucketsTable.EntryOp V) (now : Nat)
  | closestKeys (target : NodeId) (n now : Nat)
  | closestValues (target : NodeId) (n now : Nat)
  | closestValuesPredicate (target : NodeId) (predicate : V → Bool) (n now : Nat)
  | nodesByDistances (log2Distances : List Nat) (maxNodes now : Nat)
  | iter (now : Nat)
  | takeAppliedPending

namespace TableOp

variable [DecidableEq V]

/-- One operation, keeping the new table; `none` is an `unreachable!`. -/
def apply : TableOp V → KBucketsTable V → Option (KBucketsTable V)
  | .insertOrUpdate key value status now, t => (t.insertOrUpdate key value status now).map (·.2)
  | .updateNode key value state now, t => (t.updateNode key value state now).map (·.2)
  | .updateNodeStatus key state direction now, t =>
    (t.updateNodeStatus key state direction now).map (·.2)
  | .remove key now, t => (t.remove key now).map (·.2)
  | .entry key op now, t => t.entry key op now
  | .closestKeys target n now, t => ((t.closestKeys target).take now n).map (·.2.table)
  | .closestValues target n now, t => ((t.closestValues target).take now n).map (·.2.table)
  | .closestValuesPredicate target predicate n now, t =>
    ((t.closestValuesPredicate target predicate).take now n).map (·.2.table)
  | .nodesByDistances log2Distances maxNodes now, t =>
    (t.nodesByDistances log2Distances maxNodes now).map (·.2)
  | .iter now, t => (t.iter now).map (·.2)
  | .takeAppliedPending, t => some t.takeAppliedPending.2

/-- A sequence of operations, stopping at an `unreachable!`. -/
def run : KBucketsTable V → List (TableOp V) → Option (KBucketsTable V)
  | t, [] => some t
  | t, op :: ops => (op.apply t).bind fun t' => run t' ops

theorem exists_map_of_exists {α β : Type} {x : Option α} {f : α → β} {P : β → Prop}
    (h : ∃ r, x = some r ∧ P (f r)) : ∃ b, x.map f = some b ∧ P b := by
  obtain ⟨r, rfl, hr⟩ := h
  exact ⟨f r, rfl, hr⟩

/-- The step lemma of the table: every operation returns and keeps the invariant. -/
theorem apply_inv {t : KBucketsTable V} (h : t.Inv) (op : TableOp V) :
    ∃ t', op.apply t = some t' ∧ t'.Inv ∧ t'.localKey = t.localKey := by
  cases op with
  | insertOrUpdate key value status now => exact exists_map_of_exists (h.insertOrUpdate key value status now)
  | updateNode key value state now => exact exists_map_of_exists (h.updateNode key value state now)
  | updateNodeStatus key state direction now =>
    exact exists_map_of_exists (h.updateNodeStatus key state direction now)
  | remove key now => exact exists_map_of_exists (h.remove key now)
  | entry key op now => exact h.entry key op now
  | closestKeys target n now => exact exists_map_of_exists (ClosestIter.take_inv now n _ h)
  | closestValues target n now => exact exists_map_of_exists (ClosestIter.take_inv now n _ h)
  | closestValuesPredicate target predicate n now =>
    exact exists_map_of_exists (ClosestIter.take_inv now n _ h)
  | nodesByDistances log2Distances maxNodes now =>
    exact exists_map_of_exists (h.nodesByDistances log2Distances maxNodes now)
  | iter now => exact exists_map_of_exists (h.iter now)
  | takeAppliedPending => exact ⟨_, rfl, h.takeAppliedPending⟩

/-- The run lemma of the table. -/
theorem run_inv {t : KBucketsTable V} (h : t.Inv) (ops : List (TableOp V)) :
    ∃ t', run t ops = some t' ∧ t'.Inv ∧ t'.localKey = t.localKey := by
  induction ops generalizing t with
  | nil => exact ⟨t, rfl, h, rfl⟩
  | cons op ops ih =>
    obtain ⟨t₁, h₁, hinv₁, hl₁⟩ := apply_inv h op
    obtain ⟨t₂, h₂, hinv₂, hl₂⟩ := ih hinv₁
    exact ⟨t₂, by simp [run, h₁, h₂], hinv₂, hl₂.trans hl₁⟩

end TableOp

/-- Placement along every run from `KBucketsTable::new`: a node of bucket `i`
has bucket index `i` and log2 distance `i + 1` from the local key, no key is
in two buckets, and the local key is in none. -/
theorem TableOp.run_placement [DecidableEq V] (localKey : NodeId) (pendingTimeout maxIncoming : Nat)
    (tableFilter bucketFilter : Option (Filter V)) (ops : List (TableOp V)) :
    ∃ t, TableOp.run (KBucketsTable.new localKey pendingTimeout maxIncoming tableFilter bucketFilter)
        ops = some t ∧ t.Inv ∧ t.localKey = localKey ∧
      (∀ i, ∀ n ∈ (t.buckets i).nodes, BucketIndex.new (distance localKey n.key) = some i ∧
        log2Distance localKey n.key = some (i.val + 1)) ∧
      (∀ i j, ∀ n ∈ (t.buckets i).nodes, ∀ m ∈ (t.buckets j).nodes, n.key = m.key → i = j) ∧
      ∀ i, localKey ∉ (t.buckets i).nodes.map (·.key) := by
  obtain ⟨t, ht, h, hl⟩ := TableOp.run_inv (KBucketsTable.Inv.new localKey pendingTimeout maxIncoming
    tableFilter bucketFilter) ops
  have hl' : t.localKey = localKey := hl
  -- every placement fact is read off the `placed` field of the invariant
  have hplaced : ∀ i, ∀ n ∈ (t.buckets i).nodes, BucketIndex.new (distance localKey n.key) = some i :=
    fun i n hn => hl' ▸ (h.placed i).nodes n hn
  refine ⟨t, ht, h, hl', fun i n hn => ⟨hplaced i n hn, ?_⟩, ?_, ?_⟩
  · exact bucketIndex_new_eq_some_iff.mp (hplaced i n hn)
  · intro i j n hn m hm hnm
    have hi := hplaced i n hn
    rw [hnm, hplaced j m hm] at hi
    exact (Option.some.inj hi).symm
  · intro i hmem
    obtain ⟨n, hn, hk⟩ := List.mem_map.mp hmem
    have hi := hplaced i n hn
    rw [hk, bucketIndex_new_self] at hi
    cases hi

/-- `nodes_by_distances` along every run from `KBucketsTable::new`, for
`max_nodes ≥ 1`: the first `max_nodes` nodes of the buckets `d - 1` for the
distances `d` in `[1, 256]`, in their order, each at its log2 distance. -/
theorem TableOp.run_nodesByDistances [DecidableEq V] (localKey : NodeId)
    (pendingTimeout maxIncoming : Nat) (tableFilter bucketFilter : Option (Filter V))
    (ops : List (TableOp V)) (log2Distances : List Nat) {maxNodes : Nat} (hm : 0 < maxNodes)
    (now : Nat) :
    ∃ t, TableOp.run (KBucketsTable.new localKey pendingTimeout maxIncoming tableFilter bucketFilter)
        ops = some t ∧
      ∃ t', t.nodesByDistances log2Distances maxNodes now =
          some (((log2Distances.filter fun d => 0 < d && d ≤ numBuckets).flatMap
            t'.nodesAtDistance).take maxNodes, t') ∧
        ∀ n ∈ ((log2Distances.filter fun d => 0 < d && d ≤ numBuckets).flatMap
            t'.nodesAtDistance).take maxNodes,
          ∃ d ∈ log2Distances, 1 ≤ d ∧ d ≤ numBuckets ∧ log2Distance localKey n.key = some d := by
  obtain ⟨t, ht, h, hl⟩ := TableOp.run_inv (KBucketsTable.Inv.new localKey pendingTimeout maxIncoming
    tableFilter bucketFilter) ops
  obtain ⟨t', ht', h', hl'⟩ := h.nodesByDistances_eq log2Distances hm now
  refine ⟨t, ht, t', ht', fun n hn => ?_⟩
  obtain ⟨d, hd, hnd⟩ := List.mem_flatMap.mp (List.mem_of_mem_take hn)
  simp only [List.mem_filter, Bool.and_eq_true, decide_eq_true_eq] at hd
  obtain ⟨hdn, hlog⟩ := KBucketsTable.mem_nodesAtDistance h' hd.2.1 hnd
  have hk : t'.localKey = localKey := hl'.trans hl
  exact ⟨d, hd.1, hd.2.1, hdn, hk ▸ hlog⟩

/-- The bucket invariant along every run of bucket operations from
`KBucket::new`, read back in the words of the source: the cached
`first_connected_pos` is the first connected position, disconnected nodes
precede connected ones, the incoming limit holds, keys are distinct and at
most `MAX_NODES_PER_BUCKET`, the pending key is fresh, and neither
`update_status` nor `apply_pending` can reach an `unreachable!`; when
`apply_pending` inserts the pending node into a bucket with room, `insert`
returns neither `Pending` nor `NodeExists`, so its "Bucket is not full or
double node" error branch is never taken. Over the
table, whose buckets start the same way, `insert_or_update` never reaches
one either. -/
theorem bucket_run_invariant {κ : Type} [DecidableEq κ] [DecidableEq V]
    (pendingTimeout maxIncoming : Nat) (filter : Option (Filter V)) (ops : List (BucketOp κ V)) :
    (∃ b, BucketOp.run (KBucket.new pendingTimeout maxIncoming filter) ops = some b ∧
      b.firstConnectedPos = b.nodes.findIdx? (fun n => n.status.isConnected) ∧
      (∀ (i : Nat) (hi : i < b.nodes.length),
        b.nodes[i].status.isConnected = true ↔ ∃ f, b.firstConnectedPos = some f ∧ f ≤ i) ∧
      KBucket.numIncoming b.nodes ≤ maxIncoming ∧
      (b.nodes.map (·.key)).Nodup ∧ b.nodes.length ≤ maxNodesPerBucket ∧
      (∀ p, b.pending = some p → p.node.key ∉ b.nodes.map (·.key)) ∧
      (∀ key state direction now, (b.updateStatus key state direction now).isSome) ∧
      (∀ now, (b.applyPending now).isSome) ∧
      ∀ p now, b.pending = some p → b.nodes.length < maxNodesPerBucket → ∀ k,
        (({ b with pending := none } : KBucket κ V).insert p.node now).1 ≠ .pending k ∧
          (({ b with pending := none } : KBucket κ V).insert p.node now).1 ≠ .nodeExists) ∧
    ∀ (localKey : NodeId) (tableFilter bucketFilter : Option (Filter V)) (tops : List (TableOp V)),
      ∃ t, TableOp.run (KBucketsTable.new localKey pendingTimeout maxIncoming tableFilter
          bucketFilter) tops = some t ∧
        ∀ key value status now, (t.insertOrUpdate key value status now).isSome := by
  constructor
  · obtain ⟨b, hb, h, hp⟩ := BucketOp.run_inv (KBucket.Inv.new pendingTimeout maxIncoming filter) ops
    -- the incoming limit is the one `new` was given: `params` is kept by every operation
    have hmax : b.maxIncoming = maxIncoming := congrArg (·.2.2) hp
    refine ⟨b, hb, h.boundary.eq_findIdx?, h.boundary.getElem_iff, hmax ▸ h.incoming_le, h.nodup,
      h.length_le, h.pending_fresh, fun key state direction now => ?_, fun now => ?_,
      fun p now hp hroom k => ?_⟩
    · obtain ⟨r, hr, -⟩ := h.updateStatus key state direction now
      simp [hr]
    · obtain ⟨r, hr, -⟩ := h.applyPending now
      simp [hr]
    · -- below capacity `insert` never defers, and the pending key is not in the bucket
      exact ⟨KBucket.insert_ne_pending_of_room (b := { b with pending := none }) hroom p.node now k,
        KBucket.insert_ne_nodeExists_of_fresh (b := { b with pending := none })
          (h.pending_fresh p hp) now⟩
  · intro localKey tableFilter bucketFilter tops
    obtain ⟨t, ht, h, -⟩ := TableOp.run_inv (KBucketsTable.Inv.new localKey pendingTimeout
      maxIncoming tableFilter bucketFilter) tops
    refine ⟨t, ht, fun key value status now => ?_⟩
    obtain ⟨r, hr, -⟩ := h.insertOrUpdate key value status now
    simp [hr]

end Discv5.Kbucket
