import Discv5.Kbucket.Guard
import Discv5.Kbucket.TableInvariant

/-!
# Properties of every node of the table

A property `Q` of nodes holds of a bucket when it holds of every node and
of the pending node (`KBucket.NodesSat`), and of a table when it holds of
every bucket. `apply_pending` only moves the pending node into the bucket,
so it keeps such a property, and then so does the first loop of
`nodes_by_distances`; what the second loop returns are nodes of the buckets
(`NodesSat.nodesByDistances`). This is how a fact about the records the
table stores (that each is keyed by its node id, or that it fits a size)
reaches the records of a NODES response.

For a property of a node's key and value, every operation that writes to
the table keeps it when the value it writes has it, and what the `closest_*`
iterators yield has it (`ClosestIter.ItemsSat`).
-/

namespace Discv5.Kbucket

variable {κ V : Type}

namespace KBucket

/-- Every node of the bucket, the pending one included, satisfies `Q`. -/
structure NodesSat (Q : Node κ V → Prop) (b : KBucket κ V) : Prop where
  nodes : ∀ n ∈ b.nodes, Q n
  pending : ∀ p, b.pending = some p → Q p.node

variable {Q : Node κ V → Prop}

theorem NodesSat.applyPending [DecidableEq κ] {b : KBucket κ V} (hinv : b.Inv) (h : b.NodesSat Q)
    {now : Nat} {r : Option (AppliedPending κ V) × KBucket κ V} (hr : b.applyPending now = some r) :
    r.2.NodesSat Q := by
  refine ⟨fun n hn => ?_, fun q hq => ?_⟩
  · -- a node after `apply_pending` was there before, or is the pending one
    rcases (applyPending_reshape hinv hr).mem hn with hn | ⟨p, hp, rfl⟩
    · exact h.nodes n hn
    · exact h.pending p hp
  · obtain ⟨p, hp, he⟩ := applyPending_pending hr hq
    rw [he]
    exact h.pending p hp

/-! The operations that change a node change its status or put in a value
they are given, so a property of keys and values holds after each when it
holds of what it is given. -/

section KeyValue

variable {P : κ → V → Prop}

theorem NodesSat.insert_eq [DecidableEq κ] {b b' : KBucket κ V} (h : b.NodesSat fun n => P n.key n.value)
    {node : Node κ V} {now : Nat} {r : InsertResult κ} (heq : b.insert node now = (r, b'))
    (hn : P node.key node.value) : b'.NodesSat fun n => P n.key n.value := by
  refine ⟨fun n hm => ?_, fun q hq => ?_⟩
  · rcases mem_insert_nodes_of_eq heq hm with hm | rfl
    · exact h.nodes n hm
    · exact hn
  · rcases insert_pending_of_eq heq hq with hq | hq
    · exact h.pending q hq
    · rw [hq]
      exact hn

theorem NodesSat.updatePending {b : KBucket κ V} (h : b.NodesSat fun n => P n.key n.value)
    (status : NodeStatus) : (b.updatePending status).NodesSat fun n => P n.key n.value := by
  refine ⟨h.nodes, fun q hq => ?_⟩
  obtain ⟨p, hp, rfl⟩ := Option.map_eq_some_iff.mp hq
  exact h.pending p hp

theorem NodesSat.updateStatus [DecidableEq κ] {b : KBucket κ V} (h : b.NodesSat fun n => P n.key n.value) {key : κ}
    {state : ConnectionState} {direction : Option ConnectionDirection} {now : Nat}
    {r : UpdateResult × KBucket κ V} (hr : b.updateStatus key state direction now = some r) :
    r.2.NodesSat fun n => P n.key n.value := by
  have hnodes : ∀ n ∈ r.2.nodes, P n.key n.value := fun n hn => by
    rcases (updateStatus_reshape hr).mem hn with hn | ⟨m, hm, hk, hv⟩
    · exact h.nodes n hn
    · rw [hk, hv]
      exact h.nodes m hm
  unfold KBucket.updateStatus at hr
  split at hr
  · rename_i pos _
    split at hr
    · cases hr
    · rename_i node hnode
      have hn : P node.key node.value := h.nodes node (List.mem_of_getElem? hnode)
      simp only at hr
      split at hr
      all_goals first
        | (cases hr
           rename_i heq
           refine ⟨hnodes, fun q hq => ?_⟩
           rcases insert_pending_of_eq heq hq with hq | hq
           · -- the bucket reinserted into keeps the pending node or drops it
             split_ifs at hq
             exact h.pending q hq
           · rw [hq]
             exact hn)
        | cases hr
  · split at hr
    · rename_i p hp
      split at hr
      · cases hr
        refine ⟨hnodes, fun q hq => ?_⟩
        cases hq
        exact h.pending p hp
      · cases hr
        exact h
    · cases hr
      exact h

theorem NodesSat.updateValue [DecidableEq κ] [DecidableEq V] {b : KBucket κ V} (hinv : b.Inv)
    (h : b.NodesSat fun n => P n.key n.value) {key : κ} {value : V} (hv : P key value)
    {r : UpdateResult × KBucket κ V} (hr : b.updateValue key value = some r) :
    r.2.NodesSat fun n => P n.key n.value := by
  have hnodes : ∀ n ∈ r.2.nodes, P n.key n.value := fun n hn => by
    rcases (updateValue_reshape hinv hr).mem hn with hn | ⟨hk, hx⟩
    · exact h.nodes n hn
    · rw [hk, hx]
      exact hv
  unfold KBucket.updateValue at hr
  split at hr
  · split at hr
    · cases hr
    · simp only at hr
      split_ifs at hr <;> (cases hr; exact ⟨hnodes, h.pending⟩)
  · split at hr
    · rename_i p hp
      split at hr
      · rename_i hkey
        cases hr
        refine ⟨hnodes, fun q hq => ?_⟩
        cases hq
        simp only
        rw [hkey]
        exact hv
      · cases hr
        exact h
    · cases hr
      exact h

theorem NodesSat.remove [DecidableEq κ] {b : KBucket κ V} (hinv : b.Inv) (h : b.NodesSat fun n => P n.key n.value)
    {key : κ} {now : Nat} {r : Bool × KBucket κ V} (hr : b.remove key now = some r) :
    r.2.NodesSat fun n => P n.key n.value := by
  unfold KBucket.remove at hr
  split at hr
  · rename_i pos hpos
    obtain ⟨hlt, -⟩ := position_eq_some hpos
    obtain ⟨r', hr', rfl⟩ := Option.map_eq_some_iff.mp hr
    have h1 : NodesSat (fun n => P n.key n.value) (({ b with nodes := b.nodes.eraseIdx pos } : KBucket κ V)
        |>.updateFirstConnectedPosForRemoval pos) :=
      ⟨fun n hm => h.nodes n ((List.eraseIdx_sublist _ _).subset hm), h.pending⟩
    exact h1.applyPending (hinv.eraseIdx hlt) hr'
  · cases hr
    exact h

end KeyValue

end KBucket

namespace KBucketsTable

/-- Every node of every bucket satisfies `Q`. -/
def NodesSat (Q : Node NodeId V → Prop) (t : KBucketsTable V) : Prop :=
  ∀ i, (t.buckets i).NodesSat Q

variable {Q : Node NodeId V → Prop}

theorem NodesSat.new (localKey : NodeId) (pendingTimeout maxIncoming : Nat)
    (tableFilter bucketFilter : Option (Filter V)) :
    (KBucketsTable.new localKey pendingTimeout maxIncoming tableFilter bucketFilter).NodesSat Q :=
  fun _ => ⟨fun n hn => by simp [KBucketsTable.new, KBucket.new] at hn,
    fun p hp => by simp [KBucketsTable.new, KBucket.new] at hp⟩

theorem NodesSat.setBucket {t : KBucketsTable V} (h : t.NodesSat Q) {i : Fin numBuckets}
    {b : KBucket NodeId V} (hb : b.NodesSat Q) : (t.setBucket i b).NodesSat Q := by
  intro j
  by_cases hj : j = i
  · subst hj
    simpa using hb
  · simpa [hj] using h j

/-- The value of a node of a bucket is a value of the table. -/
theorem mem_tableIter {t : KBucketsTable V} {i : Fin numBuckets} {n : Node NodeId V}
    (hn : n ∈ (t.buckets i).nodes) : n.value ∈ t.tableIter :=
  List.mem_flatMap.mpr ⟨i, List.mem_finRange i, List.mem_map_of_mem hn⟩

section KeyValue

variable {P : NodeId → V → Prop}

theorem NodesSat.applyPendingAt {t t' : KBucketsTable V} (hinv : t.Inv)
    (h : t.NodesSat fun n => P n.key n.value) {i : Fin numBuckets} {now : Nat}
    (ht : t.applyPendingAt i now = some t') : t'.NodesSat fun n => P n.key n.value := by
  unfold KBucketsTable.applyPendingAt at ht
  simp only [Option.bind_eq_bind, Option.pure_def, Option.bind_eq_some_iff,
    Option.some.injEq] at ht
  obtain ⟨r, hr, rfl⟩ := ht
  exact h.setBucket ((h i).applyPending (hinv.buckets i) hr)

theorem NodesSat.updateNodeStatus {t : KBucketsTable V} (hinv : t.Inv)
    (h : t.NodesSat fun n => P n.key n.value) {key : NodeId} {state : ConnectionState}
    {direction : Option ConnectionDirection} {now : Nat} {r : UpdateResult × KBucketsTable V}
    (hr : t.updateNodeStatus key state direction now = some r) :
    r.2.NodesSat fun n => P n.key n.value := by
  unfold KBucketsTable.updateNodeStatus at hr
  split at hr
  · rename_i i _
    obtain ⟨t₁, ht₁, hinv₁, -⟩ := hinv.applyPendingAt i now
    simp only [ht₁, Option.bind_eq_bind, Option.bind_some, Option.pure_def,
      Option.bind_eq_some_iff, Option.some.injEq] at hr
    obtain ⟨r', hr', rfl⟩ := hr
    exact (h.applyPendingAt hinv ht₁).setBucket ((h.applyPendingAt hinv ht₁ i).updateStatus hr')
  · cases hr
    exact h

theorem NodesSat.remove {t : KBucketsTable V} (hinv : t.Inv)
    (h : t.NodesSat fun n => P n.key n.value) {key : NodeId} {now : Nat} {r : Bool × KBucketsTable V}
    (hr : t.remove key now = some r) : r.2.NodesSat fun n => P n.key n.value := by
  unfold KBucketsTable.remove at hr
  split at hr
  · rename_i i _
    obtain ⟨t₁, ht₁, hinv₁, -⟩ := hinv.applyPendingAt i now
    simp only [ht₁, Option.bind_eq_bind, Option.bind_some, Option.pure_def,
      Option.bind_eq_some_iff, Option.some.injEq] at hr
    obtain ⟨r', hr', rfl⟩ := hr
    exact (h.applyPendingAt hinv ht₁).setBucket
      ((h.applyPendingAt hinv ht₁ i).remove (hinv₁.buckets i) hr')
  · cases hr
    exact h

/-- `iter` keeps the property, and what it yields has it. -/
theorem NodesSat.iter {t : KBucketsTable V} (hinv : t.Inv) (h : t.NodesSat fun n => P n.key n.value)
    {now : Nat} {r : List (Node NodeId V) × KBucketsTable V} (hr : t.iter now = some r) :
    (r.2.NodesSat fun n => P n.key n.value) ∧ ∀ n ∈ r.1, P n.key n.value := by
  -- the fold applies the pending node of one bucket after another, the
  -- nodes gathered so far satisfying the property
  suffices hfold : ∀ (l : List (Fin numBuckets)) (acc : List (Node NodeId V)) (t₀ : KBucketsTable V),
      t₀.Inv → (t₀.NodesSat fun n => P n.key n.value) → (∀ n ∈ acc, P n.key n.value) →
      ∀ r, l.foldlM (fun (x : List (Node NodeId V) × KBucketsTable V) i => do
          let t ← x.2.applyPendingAt i now
          pure (x.1 ++ (t.buckets i).nodes, t)) (acc, t₀) = some r →
        (r.2.NodesSat fun n => P n.key n.value) ∧ ∀ n ∈ r.1, P n.key n.value from
    hfold _ [] t hinv h (fun n hn => by cases hn) r hr
  intro l
  induction l with
  | nil =>
    intro acc t₀ _ h₀ hacc r hr
    cases hr
    exact ⟨h₀, hacc⟩
  | cons i l ih =>
    intro acc t₀ hinv₀ h₀ hacc r hr
    obtain ⟨t₁, ht₁, hinv₁, -⟩ := hinv₀.applyPendingAt i now
    have h₁ := h₀.applyPendingAt hinv₀ ht₁
    refine ih (acc ++ (t₁.buckets i).nodes) t₁ hinv₁ h₁ (fun n hn => ?_) r
      (by simpa [List.foldlM_cons, ht₁] using hr)
    rcases List.mem_append.mp hn with hn | hn
    · exact hacc n hn
    · exact (h₁ i).nodes n hn

section ValueEq

variable [DecidableEq V]

theorem NodesSat.updateNode {t : KBucketsTable V} (hinv : t.Inv)
    (h : t.NodesSat fun n => P n.key n.value) {key : NodeId} {value : V} (hv : P key value)
    {state : Option ConnectionState} {now : Nat} {r : UpdateResult × KBucketsTable V}
    (hr : t.updateNode key value state now = some r) : r.2.NodesSat fun n => P n.key n.value := by
  unfold KBucketsTable.updateNode at hr
  split at hr
  · rename_i i _
    obtain ⟨t₁, ht₁, hinv₁, -⟩ := hinv.applyPendingAt i now
    have h₁ := h.applyPendingAt hinv ht₁
    simp only [ht₁, Option.bind_eq_bind, Option.bind_some] at hr
    split_ifs at hr
    · -- the value failed the table filter: the node is removed
      simp only [Option.pure_def, Option.bind_eq_some_iff, Option.some.injEq] at hr
      obtain ⟨r', hr', rfl⟩ := hr
      exact h₁.setBucket ((h₁ i).remove (hinv₁.buckets i) hr')
    · simp only [Option.pure_def, Option.bind_eq_some_iff] at hr
      obtain ⟨r', hr', hr⟩ := hr
      have hb := (h₁ i).updateValue (hinv₁.buckets i) hv hr'
      split_ifs at hr
      · simp only [Option.some.injEq] at hr
        subst hr
        exact h₁.setBucket hb
      · -- the status is updated only when one is given
        split at hr
        · simp only [Option.bind_eq_some_iff, Option.some.injEq] at hr
          obtain ⟨r'', hr'', rfl⟩ := hr
          exact h₁.setBucket (hb.updateStatus hr'')
        · simp only [Option.bind_some, Option.some.injEq] at hr
          subst hr
          exact h₁.setBucket hb
  · cases hr
    exact h

theorem NodesSat.insertOrUpdate {t : KBucketsTable V} (hinv : t.Inv)
    (h : t.NodesSat fun n => P n.key n.value) {key : NodeId} {value : V} (hv : P key value)
    {status : NodeStatus} {now : Nat} {r : TableInsertResult × KBucketsTable V}
    (hr : t.insertOrUpdate key value status now = some r) : r.2.NodesSat fun n => P n.key n.value := by
  unfold KBucketsTable.insertOrUpdate at hr
  split at hr
  · rename_i i _
    obtain ⟨t₁, ht₁, hinv₁, -⟩ := hinv.applyPendingAt i now
    have h₁ := h.applyPendingAt hinv ht₁
    simp only [ht₁, Option.bind_eq_bind, Option.bind_some] at hr
    split_ifs at hr
    · -- the value failed the table filter: the node is removed
      simp only [Option.pure_def, Option.bind_eq_some_iff, Option.some.injEq] at hr
      obtain ⟨r', hr', rfl⟩ := hr
      exact h₁.setBucket ((h₁ i).remove (hinv₁.buckets i) hr')
    · -- a new node: every result but the unreachable one sets the bucket `insert` left
      split at hr
      all_goals first
        | (rename_i heq
           simp only [Option.pure_def, Option.some.injEq] at hr
           subst hr
           exact h₁.setBucket ((h₁ i).insert_eq heq hv))
        | cases hr
    · -- a present node: its status, then its value
      simp only [Option.pure_def, Option.bind_eq_some_iff] at hr
      obtain ⟨r', hr', hr⟩ := hr
      have hb := (h₁ i).updateStatus hr'
      split_ifs at hr
      · simp only [Option.some.injEq] at hr
        subst hr
        exact h₁.setBucket hb
      · simp only [Option.bind_eq_some_iff, Option.some.injEq] at hr
        obtain ⟨r'', hr'', x, -, rfl⟩ := hr
        obtain ⟨r₀, hr₀, hinv₀⟩ := (hinv₁.buckets i).updateStatus key status.state
          (some status.direction) now
        rw [hr'] at hr₀
        cases hr₀
        exact h₁.setBucket (hb.updateValue hinv₀ hv hr'')
  · cases hr
    exact h

end ValueEq

end KeyValue

theorem NodesSat.takeAppliedPending {t : KBucketsTable V}
    (h : t.NodesSat Q) : t.takeAppliedPending.2.NodesSat Q := by
  unfold KBucketsTable.takeAppliedPending
  split
  · exact h
  · exact h

/-- The first loop of `nodes_by_distances` keeps `Q`: each bucket it
touches only applies its pending node. -/
theorem NodesSat.applyPendingForDistances (maxNodes now : Nat) :
    ∀ (distances : List Nat) {t t' : KBucketsTable V} (nodeCount : Nat), t.Inv → t.NodesSat Q →
      applyPendingForDistances maxNodes now t nodeCount distances = some t' → t'.NodesSat Q
  | [], t, t', _, _, h, ht => by
    simp only [KBucketsTable.applyPendingForDistances, Option.some.injEq] at ht
    exact ht ▸ h
  | d :: ds, t, t', nodeCount, hinv, h, ht => by
    unfold KBucketsTable.applyPendingForDistances at ht
    split at ht
    · rename_i hd
      obtain ⟨r, hr, hbinv⟩ := (hinv.buckets ⟨d - 1, hd⟩).applyPending now
      have hsat := (h ⟨d - 1, hd⟩).applyPending (hinv.buckets _) hr
      have hinv₁ := hinv.setBucket hbinv ((hinv.placed _).applyPending hr)
      dsimp only at ht
      rw [hr] at ht
      rcases r with ⟨_ | applied, b⟩
      · exact NodesSat.applyPendingForDistances maxNodes now ds nodeCount hinv₁ (h.setBucket hsat) ht
      · -- an applied node is also logged, which changes no bucket
        have hinv₂ : KBucketsTable.Inv { t.setBucket ⟨d - 1, hd⟩ b with
            appliedPending := t.appliedPending ++ [applied] } := ⟨hinv₁.buckets, hinv₁.placed⟩
        have h₂ : NodesSat Q { t.setBucket ⟨d - 1, hd⟩ b with
            appliedPending := t.appliedPending ++ [applied] } := h.setBucket hsat
        dsimp only at ht
        split at ht
        · simp only [Option.some.injEq] at ht
          exact ht ▸ h₂
        · exact NodesSat.applyPendingForDistances maxNodes now ds _ hinv₂ h₂ ht
    · cases ht

/-- What the inner loop of `nodes_by_distances` returns was matched before or is a node of the bucket. -/
theorem mem_pushMatchingNodes (maxNodes : Nat) :
    ∀ (matching nodes : List (Node NodeId V)) {n : Node NodeId V},
      n ∈ (pushMatchingNodes maxNodes matching nodes).1 → n ∈ matching ∨ n ∈ nodes
  | matching, [], n, hn => .inl hn
  | matching, m :: ms, n, hn => by
    -- the node pushed this turn is the first of the bucket
    have hstep : ∀ {n}, n ∈ matching ++ [m] → n ∈ matching ∨ n ∈ m :: ms := by
      intro n hn
      rcases List.mem_append.mp hn with hn | hn
      · exact .inl hn
      · exact .inr (List.mem_singleton.mp hn ▸ List.mem_cons_self)
    simp only [pushMatchingNodes] at hn
    split at hn
    · exact hstep hn
    · rcases mem_pushMatchingNodes maxNodes _ ms hn with hn | hn
      · exact hstep hn
      · exact .inr (List.mem_cons_of_mem _ hn)

/-- What the second loop of `nodes_by_distances` returns was matched before
or is a node of the bucket of one of the distances. -/
theorem mem_findMatchingNodes {t : KBucketsTable V} (maxNodes : Nat) :
    ∀ (matching : List (Node NodeId V)) (distances : List Nat) {out : List (Node NodeId V)},
      t.findMatchingNodes maxNodes matching distances = some out →
      ∀ n ∈ out, n ∈ matching ∨ ∃ d ∈ distances, n ∈ t.nodesAtDistance d
  | matching, [], out, h, n, hn => by
    simp only [findMatchingNodes, Option.some.injEq] at h
    exact .inl (h ▸ hn)
  | matching, d :: ds, out, h, n, hn => by
    unfold findMatchingNodes at h
    split at h
    · rename_i hd
      have hpush : ∀ {n}, n ∈ (pushMatchingNodes maxNodes matching (t.buckets ⟨d - 1, hd⟩).nodes).1 →
          n ∈ matching ∨ ∃ d' ∈ d :: ds, n ∈ t.nodesAtDistance d' := fun hn =>
        (mem_pushMatchingNodes maxNodes _ _ hn).imp_right fun hn =>
          ⟨d, List.mem_cons_self, by simpa [nodesAtDistance, hd] using hn⟩
      split at h
      · rename_i matching' heq
        simp only [Option.some.injEq] at h
        subst h
        exact hpush (by rw [heq]; exact hn)
      · rename_i matching' heq
        rcases mem_findMatchingNodes maxNodes matching' ds h n hn with hn | ⟨d', hd', hn⟩
        · exact hpush (by rw [heq]; exact hn)
        · exact .inr ⟨d', List.mem_cons_of_mem _ hd', hn⟩
    · cases h

/-- A node of the bucket of a distance is a node of a bucket. -/
theorem NodesSat.of_mem_nodesAtDistance {t : KBucketsTable V} (h : t.NodesSat Q) {d : Nat}
    {n : Node NodeId V} (hn : n ∈ t.nodesAtDistance d) : Q n := by
  unfold nodesAtDistance at hn
  split at hn
  · exact (h _).nodes n hn
  · cases hn

/-- `nodes_by_distances` returns nodes of the buckets of the distances in
`[1, 256]` of the table it leaves, which keeps every `Q` the table's nodes
satisfy. -/
theorem NodesSat.nodesByDistances {t : KBucketsTable V} (hinv : t.Inv) (h : t.NodesSat Q)
    {log2Distances : List Nat} {maxNodes now : Nat} {nodes : List (Node NodeId V)}
    {t' : KBucketsTable V} (hr : t.nodesByDistances log2Distances maxNodes now = some (nodes, t')) :
    t'.NodesSat Q ∧ t'.Inv ∧ t'.localKey = t.localKey ∧
      ∀ n ∈ nodes, ∃ d ∈ log2Distances, 0 < d ∧ d ≤ numBuckets ∧ n ∈ t'.nodesAtDistance d := by
  simp only [KBucketsTable.nodesByDistances, Option.bind_eq_bind, Option.pure_def,
    Option.bind_eq_some_iff, Option.some.injEq, Prod.mk.injEq] at hr
  obtain ⟨t₁, ht₁, out, hout, rfl, rfl⟩ := hr
  have hds : ∀ d ∈ log2Distances.filter (fun d => 0 < d && d ≤ numBuckets), d - 1 < numBuckets := by
    intro d hm
    simp only [List.mem_filter, Bool.and_eq_true, decide_eq_true_eq] at hm
    unfold numBuckets at hm ⊢
    omega
  -- the table left is the one the first loop returns
  obtain ⟨t₂, ht₂, hinv₂, hl₂⟩ := Inv.applyPendingForDistances maxNodes now _ 0 hinv hds
  rw [ht₁, Option.some.injEq] at ht₂
  subst ht₂
  refine ⟨NodesSat.applyPendingForDistances maxNodes now _ 0 hinv h ht₁, hinv₂, hl₂, fun n hn => ?_⟩
  rcases mem_findMatchingNodes maxNodes [] _ hout n hn with hn | ⟨d, hd, hn⟩
  · cases hn
  · simp only [List.mem_filter, Bool.and_eq_true, decide_eq_true_eq] at hd
    exact ⟨d, hd.1, hd.2.1, hd.2.2, hn⟩

end KBucketsTable


namespace ClosestIter

variable {Out : Type} {P : NodeId → V → Prop} {R : Out → Prop}

/-- What an iterator over the table yields satisfies `R`: its table keeps
the invariant and `P`, `fmap` takes a bucket whose nodes satisfy `P` to
items that satisfy `R`, and the items of the bucket it drains satisfy `R`. -/
structure ItemsSat (P : NodeId → V → Prop) (R : Out → Prop) (it : ClosestIter V Out) : Prop where
  inv : it.table.Inv
  table : it.table.NodesSat fun n => P n.key n.value
  fmap : ∀ b : KBucket NodeId V, b.NodesSat (fun n => P n.key n.value) → ∀ x ∈ it.fmap b, R x
  items : ∀ l, it.iter = some l → ∀ x ∈ l, R x

/-- The step lemma of the iterator: `next` keeps `ItemsSat` and yields an
item that satisfies `R`. -/
theorem ItemsSat.next {now : Nat} {it : ClosestIter V Out} (h : it.ItemsSat P R)
    {r : Option Out × ClosestIter V Out} (hr : it.next now = some r) :
    r.2.ItemsSat P R ∧ ∀ x, r.1 = some x → R x := by
  fun_induction ClosestIter.next it now with
  | case1 it k rest hiter =>
    cases hr
    have hitems := h.items _ hiter
    refine ⟨⟨h.inv, h.table, h.fmap, fun l hl x hx => ?_⟩, fun x hx => ?_⟩
    · simp only [Option.some.injEq] at hl
      exact hitems x (hl ▸ List.mem_cons_of_mem k hx)
    · simp only [Option.some.injEq] at hx
      exact hx ▸ hitems k List.mem_cons_self
  | case2 it hiter ih => exact ih ⟨h.inv, h.table, h.fmap, fun l hl => by cases hl⟩ hr
  | case3 it hiter i bucketsIter hb hnone => cases hr
  | case4 it hiter i bucketsIter hb table htable v ih =>
    obtain ⟨t', ht', hinv', -⟩ := h.inv.applyPendingAt i now
    rw [ht'] at htable
    cases htable
    -- the drained bucket's items are the sorted image of its nodes
    have hsat := h.table.applyPendingAt h.inv ht'
    refine ih ⟨hinv', hsat, h.fmap, fun l hl x hx => ?_⟩ hr
    simp only [Option.some.injEq] at hl
    subst hl
    exact h.fmap _ (hsat i) x (List.mem_mergeSort.mp hx)
  | case5 it hiter bucketsIter hb =>
    cases hr
    exact ⟨⟨h.inv, h.table, h.fmap, h.items⟩, fun x hx => by cases hx⟩

/-- The run lemma of the iterator: what `take` yields satisfies `R`. -/
theorem ItemsSat.take (now : Nat) :
    ∀ (n : Nat) {it : ClosestIter V Out}, it.ItemsSat P R → ∀ {r : List Out × ClosestIter V Out},
      it.take now n = some r → r.2.ItemsSat P R ∧ ∀ x ∈ r.1, R x
  | 0, it, h, r, hr => by
    cases hr
    exact ⟨h, fun x hx => by cases hx⟩
  | n + 1, it, h, r, hr => by
    unfold ClosestIter.take at hr
    split at hr
    · cases hr
    · rename_i it₁ hnext
      cases hr
      exact ⟨(h.next hnext).1, fun x hx => by cases hx⟩
    · rename_i x it₁ hnext
      simp only [Option.bind_eq_bind, Option.pure_def, Option.bind_eq_some_iff] at hr
      obtain ⟨⟨xs, it₂⟩, hr₂, hr⟩ := hr
      cases hr
      obtain ⟨h₁, hx⟩ := h.next hnext
      obtain ⟨h₂, hxs⟩ := ItemsSat.take now n h₁ hr₂
      refine ⟨h₂, fun y hy => ?_⟩
      rcases List.mem_cons.mp hy with rfl | hy
      · exact hx y rfl
      · exact hxs y hy

end ClosestIter

namespace KBucketsTable

variable {P : NodeId → V → Prop}

/-- `closest_values` starts with the table's nodes, key and value. -/
theorem closestValues_itemsSat {t : KBucketsTable V} (hinv : t.Inv)
    (h : t.NodesSat fun n => P n.key n.value) (target : NodeId) :
    (t.closestValues target).ItemsSat P fun x => P x.key x.value := by
  refine ⟨hinv, h, fun b hb x hx => ?_, fun l hl => by cases hl⟩
  obtain ⟨n, hn, rfl⟩ := List.mem_map.mp hx
  exact hb.nodes n hn

/-- `closest_values_predicate` starts with the table's nodes, key and value. -/
theorem closestValuesPredicate_itemsSat {t : KBucketsTable V} (hinv : t.Inv)
    (h : t.NodesSat fun n => P n.key n.value) (target : NodeId) (predicate : V → Bool) :
    (t.closestValuesPredicate target predicate).ItemsSat P fun x => P x.key x.value := by
  refine ⟨hinv, h, fun b hb x hx => ?_, fun l hl => by cases hl⟩
  obtain ⟨n, hn, rfl⟩ := List.mem_map.mp hx
  exact hb.nodes n hn

end KBucketsTable

end Discv5.Kbucket
