import Mathlib
import Discv5.Kbucket.BucketInvariant

/-!
# What a bucket filter guards

A bucket consults its filter whenever a value enters it: `insert` asks it
against the bucket's values, `update_status` and `update_value` against the
values without the node they change, and the full branch of `apply_pending`
against all values, the one it evicts included. A property `Q` of a list of
values is guarded by the filter `f` (`FilterGuards f Q`) when it survives
sublists and reordering and when whatever `f` admits next to values
satisfying `Q`, none of them equal to it, keeps `Q`.

`Reshape` says, for one operation, which nodes it keeps and which node it
adds: a sublist of the old nodes, up to order, and at most one node the
filter admitted against old nodes that did not hold its key. Every
operation has a `Reshape` lemma; with it a guarded property of the values
holds along every run, as long as every value records its node's key
(`Keyed`), which is what makes a new value differ from those it is checked
against.
-/

namespace Discv5.Kbucket

variable {κ V : Type}

/-- The filter, if the bucket has one, admits `v` next to the values of `l`. -/
def FilterAdmits (filter : Option (Filter V)) (v : V) (l : List (Node κ V)) : Prop :=
  ∀ f, filter = some f → f v (l.map (·.value)) = true

/-- A property of a list of values that the filter `f` keeps. -/
structure FilterGuards (f : Filter V) (Q : List V → Prop) : Prop where
  sublist : ∀ {l l' : List V}, l'.Sublist l → Q l → Q l'
  perm : ∀ {l l' : List V}, l.Perm l' → Q l → Q l'
  accept : ∀ {v : V} {l : List V}, v ∉ l → f v l = true → Q l → Q (v :: l)

/-- What an operation did to a bucket's nodes `old`: the nodes `new` are a
sublist `l` of them, reordered, or that and one node `x` satisfying `New`,
admitted by the filter against a sublist `l'` of `old` between the two,
whose key `l'` does not hold. -/
def Reshape (filter : Option (Filter V)) (New : Node κ V → Prop) (old new : List (Node κ V)) :
    Prop :=
  ∃ l l', l.Sublist l' ∧ l'.Sublist old ∧
    (new.Perm l ∨ ∃ x, New x ∧ new.Perm (x :: l) ∧ FilterAdmits filter x.value l' ∧
      x.key ∉ l'.map (·.key))

namespace Reshape

variable {filter : Option (Filter V)} {New : Node κ V → Prop}

theorem of_perm {old new : List (Node κ V)} (h : new.Perm old) : Reshape filter New old new :=
  ⟨old, old, .refl _, .refl _, .inl h⟩

theorem refl (old : List (Node κ V)) : Reshape filter New old old := of_perm (.refl _)

theorem of_sublist {old new : List (Node κ V)} (h : new.Sublist old) : Reshape filter New old new :=
  ⟨new, new, .refl _, h, .inl (.refl _)⟩

/-- One node admitted against all the old nodes. -/
theorem add {old new : List (Node κ V)} {x : Node κ V} (hx : New x) (hperm : new.Perm (x :: old))
    (hadm : FilterAdmits filter x.value old) (hfresh : x.key ∉ old.map (·.key)) :
    Reshape filter New old new :=
  ⟨old, old, .refl _, .refl _, .inr ⟨x, hx, hperm, hadm, hfresh⟩⟩

/-- An operation on a sublist of the nodes is one on the nodes. -/
theorem trans_sublist {old mid new : List (Node κ V)} (hmid : mid.Sublist old)
    (h : Reshape filter New mid new) : Reshape filter New old new := by
  obtain ⟨l, l', hl, hl', hnew⟩ := h
  exact ⟨l, l', hl, hl'.trans hmid, hnew⟩

theorem mono {New' : Node κ V → Prop} (hN : ∀ x, New x → New' x) {old new : List (Node κ V)}
    (h : Reshape filter New old new) : Reshape filter New' old new := by
  obtain ⟨l, l', hl, hl', hnew | ⟨x, hx, hperm, hadm, hfresh⟩⟩ := h
  · exact ⟨l, l', hl, hl', .inl hnew⟩
  · exact ⟨l, l', hl, hl', .inr ⟨x, hN x hx, hperm, hadm, hfresh⟩⟩

end Reshape

namespace KBucket

theorem passesFilter_admits {b : KBucket κ V} {v : V} (h : b.passesFilter v = true) :
    FilterAdmits b.filter v b.nodes := by
  intro f hf
  simpa [passesFilter, hf] using h

/-- `insertIdx` past the end leaves the list as it is. -/
theorem insertIdx_eq_or_perm (l : List α) (i : Nat) (x : α) :
    l.insertIdx i x = l ∨ (l.insertIdx i x).Perm (x :: l) := by
  by_cases hi : i ≤ l.length
  · exact .inr (List.perm_insertIdx x l hi)
  · exact .inl (List.insertIdx_of_length_lt (by omega))

variable [DecidableEq κ]

/-- `insert` adds the node, admitted by the filter against all nodes, or
leaves the nodes as they were. -/
theorem insert_reshape (b : KBucket κ V) (node : Node κ V) (now : Nat) :
    Reshape b.filter (· = node) b.nodes (b.insert node now).2.nodes := by
  unfold KBucket.insert
  by_cases hpos : (b.position node.key).isSome
  · simpa [hpos] using Reshape.refl b.nodes
  by_cases hf : b.passesFilter node.value
  swap
  · simpa [hpos, hf] using Reshape.refl b.nodes
  have hfresh : node.key ∉ b.nodes.map (·.key) :=
    position_eq_none_iff.mp (Option.not_isSome_iff_eq_none.mp hpos)
  have hadd : ∀ {nodes : List (Node κ V)}, nodes = b.nodes ∨ nodes.Perm (node :: b.nodes) →
      Reshape b.filter (· = node) b.nodes nodes := by
    rintro nodes (rfl | hperm)
    · exact Reshape.refl _
    · exact Reshape.add rfl hperm (passesFilter_admits hf) hfresh
  simp only [hpos, hf, Bool.false_eq_true, if_false, Bool.not_true]
  cases hs : node.status.state <;> cases hfcp : b.firstConnectedPos <;> simp only <;>
    split_ifs <;>
    first
    | exact Reshape.refl _
    | exact hadd (.inr (List.perm_append_singleton _ _))
    | exact hadd (insertIdx_eq_or_perm _ _ _)

theorem insert_reshape_of_eq {b b' : KBucket κ V} {node : Node κ V} {now : Nat}
    {r : InsertResult κ} (heq : b.insert node now = (r, b')) :
    Reshape b.filter (· = node) b.nodes b'.nodes := by
  have := insert_reshape b node now
  rwa [heq] at this

/-- `apply_pending` adds the pending node, evicting the first node or not, or
leaves the nodes as they were. -/
theorem applyPending_reshape {b : KBucket κ V} (h : b.Inv) {now : Nat}
    {r : Option (AppliedPending κ V) × KBucket κ V} (hr : b.applyPending now = some r) :
    Reshape b.filter (fun x => ∃ p, b.pending = some p ∧ x = p.node) b.nodes r.2.nodes := by
  unfold KBucket.applyPending at hr
  cases hp : b.pending with
  | none =>
    simp only [hp] at hr
    cases hr
    exact Reshape.refl _
  | some p =>
    simp only [hp] at hr
    have hfresh := h.pending_fresh p hp
    have hnew : ∃ q, some p = some q ∧ p.node = q.node := ⟨p, rfl, rfl⟩
    -- the full branch admits the pending node against all nodes and keeps the tail
    have hevict : ∀ {nodes : List (Node κ V)}, b.passesFilter p.node.value = true →
        nodes = b.nodes.tail ∨ nodes.Perm (p.node :: b.nodes.tail) →
        Reshape b.filter (fun x => ∃ q, some p = some q ∧ x = q.node) b.nodes nodes := by
      rintro nodes hf (rfl | hperm)
      · exact Reshape.of_sublist (List.tail_sublist _)
      · exact ⟨b.nodes.tail, b.nodes, List.tail_sublist _, .refl _,
          .inr ⟨p.node, hnew, hperm, passesFilter_admits hf, hfresh⟩⟩
    repeat' split at hr
    all_goals first
      | (cases hr; exact Reshape.refl _)
      | (cases hr
         exact hevict (by simpa using ‹¬(!_) = true›) (.inr (List.perm_append_singleton _ _)))
      | (cases hr
         exact hevict (by simpa using ‹¬(!_) = true›) (insertIdx_eq_or_perm _ _ _))
      | (cases hr
         rename_i heq
         exact (insert_reshape_of_eq heq).mono fun x hx => ⟨p, rfl, hx⟩)
      | cases hr

/-- `update_status` reinserts the node with its new status, admitted against
the other nodes, or leaves it out, or changes nothing. -/
theorem updateStatus_reshape {b : KBucket κ V} {key : κ} {state : ConnectionState}
    {direction : Option ConnectionDirection} {now : Nat} {r : UpdateResult × KBucket κ V}
    (hr : b.updateStatus key state direction now = some r) :
    Reshape b.filter (fun x => ∃ n ∈ b.nodes, x.key = n.key ∧ x.value = n.value) b.nodes
      r.2.nodes := by
  unfold KBucket.updateStatus at hr
  split at hr
  · rename_i pos _
    split at hr
    · cases hr
    · rename_i node hnode
      have hmem : node ∈ b.nodes := List.mem_of_getElem? hnode
      simp only at hr
      split at hr
      all_goals first
        | (cases hr
           rename_i heq
           exact ((insert_reshape_of_eq heq).trans_sublist (List.eraseIdx_sublist _ pos)).mono
             fun x hx => ⟨node, hmem, by rw [hx], by rw [hx]⟩)
        | cases hr
  · split at hr
    · split at hr <;> (cases hr; exact Reshape.refl _)
    · cases hr
      exact Reshape.refl _

/-- `update_value` replaces the node's value by one the filter admits
against the other nodes, or drops the node, or changes nothing. -/
theorem updateValue_reshape [DecidableEq V] {b : KBucket κ V} (h : b.Inv) {key : κ} {value : V}
    {r : UpdateResult × KBucket κ V} (hr : b.updateValue key value = some r) :
    Reshape b.filter (fun x => x.key = key ∧ x.value = value) b.nodes r.2.nodes := by
  unfold KBucket.updateValue at hr
  split at hr
  · rename_i pos hpos
    obtain ⟨hlt, hkey⟩ := position_eq_some hpos
    simp only [List.getElem?_eq_getElem hlt] at hr
    split_ifs at hr with heq hf
    · cases hr
      exact Reshape.refl _
    · cases hr
      exact Reshape.of_sublist (List.eraseIdx_sublist _ pos)
    · cases hr
      have hadm : FilterAdmits b.filter value (b.nodes.eraseIdx pos) :=
        passesFilter_admits (b := { b with nodes := b.nodes.eraseIdx pos }) (by simpa using hf)
      exact ⟨_, _, .refl _, List.eraseIdx_sublist _ pos, .inr ⟨{ b.nodes[pos] with value },
        ⟨hkey, rfl⟩, List.set_perm_cons_eraseIdx hlt _, hadm, key_not_mem_eraseIdx h hlt⟩⟩
  · split at hr
    · split at hr <;> (cases hr; exact Reshape.refl _)
    · cases hr
      exact Reshape.refl _

/-- `remove` drops the node and applies the pending node. -/
theorem remove_reshape {b : KBucket κ V} (h : b.Inv) {key : κ} {now : Nat} {r : Bool × KBucket κ V}
    (hr : b.remove key now = some r) :
    Reshape b.filter (fun x => ∃ p, b.pending = some p ∧ x = p.node) b.nodes r.2.nodes := by
  unfold KBucket.remove at hr
  split at hr
  · rename_i pos hpos
    obtain ⟨hlt, -⟩ := position_eq_some hpos
    obtain ⟨r', hr', rfl⟩ := Option.map_eq_some_iff.mp hr
    exact (applyPending_reshape (h.eraseIdx hlt) hr').trans_sublist (List.eraseIdx_sublist _ pos)
  · cases hr
    exact Reshape.refl _

end KBucket

/-! ## Guarded values along runs -/

theorem Reshape.mem {filter : Option (Filter V)} {New : Node κ V → Prop} {old new : List (Node κ V)}
    (h : Reshape filter New old new) {n : Node κ V} (hn : n ∈ new) : n ∈ old ∨ New n := by
  obtain ⟨l, l', hl, hl', hnew | ⟨x, hx, hperm, -, -⟩⟩ := h
  · exact .inl ((hl.trans hl').subset (hnew.subset hn))
  · rcases List.mem_cons.mp (hperm.subset hn) with rfl | hm
    · exact .inr hx
    · exact .inl ((hl.trans hl').subset hm)

/-- A guarded property of the values survives a reshape that adds only
values naming their node's key. -/
theorem FilterGuards.reshape {f : Filter V} {Q : List V → Prop} (hQ : FilterGuards f Q)
    {filter : Option (Filter V)} (hfilter : filter = some f) (nodeId : V → κ)
    {New : Node κ V → Prop} (hnew : ∀ x, New x → nodeId x.value = x.key)
    {old new : List (Node κ V)} (hold : ∀ n ∈ old, nodeId n.value = n.key)
    (hq : Q (old.map (·.value))) (h : Reshape filter New old new) : Q (new.map (·.value)) := by
  obtain ⟨l, l', hl, hl', hkeep | ⟨x, hx, hperm, hadm, hfresh⟩⟩ := h
  · exact hQ.perm (hkeep.map _).symm (hQ.sublist ((hl.trans hl').map _) hq)
  · -- the new value differs from the values it was checked against: their
    -- keys differ, and a value names its key
    have hxv : x.value ∉ l'.map (·.value) := by
      intro hm
      obtain ⟨n, hn, hv⟩ := List.mem_map.mp hm
      apply hfresh
      rw [← hnew x hx, ← hv, hold n (hl'.subset hn)]
      exact List.mem_map_of_mem hn
    have hq' : Q (x.value :: l'.map (·.value)) :=
      hQ.accept hxv (hadm f hfilter) (hQ.sublist (hl'.map _) hq)
    have hsub : (x.value :: l.map (·.value)).Sublist (x.value :: l'.map (·.value)) :=
      (hl.map _).cons_cons _
    exact hQ.perm (by simpa using (hperm.map (·.value)).symm) (hQ.sublist hsub hq')

namespace KBucket

/-- Every value of the bucket, the pending node's included, names the key
of its node: a record keyed by its node id. -/
structure Keyed (nodeId : V → κ) (b : KBucket κ V) : Prop where
  nodes : ∀ n ∈ b.nodes, nodeId n.value = n.key
  pending : ∀ p, b.pending = some p → nodeId p.node.value = p.node.key

variable {nodeId : V → κ}

/-- The nodes after a reshape that adds keyed nodes are keyed. -/
theorem Keyed.of_reshape {b : KBucket κ V} (h : b.Keyed nodeId) {filter : Option (Filter V)}
    {New : Node κ V → Prop} (hnew : ∀ x, New x → nodeId x.value = x.key)
    {nodes : List (Node κ V)} (hr : Reshape filter New b.nodes nodes) :
    ∀ n ∈ nodes, nodeId n.value = n.key := by
  intro n hn
  rcases hr.mem hn with hn | hn
  · exact h.nodes n hn
  · exact hnew n hn

theorem Keyed.updatePending {b : KBucket κ V} (h : b.Keyed nodeId) (status : NodeStatus) :
    (b.updatePending status).Keyed nodeId := by
  refine ⟨h.nodes, fun q hq => ?_⟩
  obtain ⟨p, hp, rfl⟩ := Option.map_eq_some_iff.mp hq
  exact h.pending p hp

variable [DecidableEq κ]

theorem Keyed.insert_eq {b b' : KBucket κ V} (h : b.Keyed nodeId) {node : Node κ V} {now : Nat}
    {r : InsertResult κ} (heq : b.insert node now = (r, b')) (hn : nodeId node.value = node.key) :
    b'.Keyed nodeId := by
  have hnew : ∀ x : Node κ V, x = node → nodeId x.value = x.key := fun x hx => hx ▸ hn
  refine ⟨h.of_reshape hnew (insert_reshape_of_eq heq), fun q hq => ?_⟩
  rcases insert_pending_of_eq heq hq with hq | hq
  · exact h.pending q hq
  · rw [hq]
    exact hn

theorem Keyed.applyPending {b : KBucket κ V} (hinv : b.Inv) (h : b.Keyed nodeId) {now : Nat}
    {r : Option (AppliedPending κ V) × KBucket κ V} (hr : b.applyPending now = some r) :
    r.2.Keyed nodeId := by
  refine ⟨h.of_reshape (fun x ⟨p, hp, hx⟩ => hx ▸ h.pending p hp) (applyPending_reshape hinv hr),
    fun q hq => ?_⟩
  obtain ⟨p, hp, he⟩ := applyPending_pending hr hq
  rw [he]
  exact h.pending p hp

theorem Keyed.updateStatus {b : KBucket κ V} (h : b.Keyed nodeId) {key : κ}
    {state : ConnectionState} {direction : Option ConnectionDirection} {now : Nat}
    {r : UpdateResult × KBucket κ V} (hr : b.updateStatus key state direction now = some r) :
    r.2.Keyed nodeId := by
  have hnodes := h.of_reshape (fun x ⟨n, hn, hk, hv⟩ => by rw [hk, hv]; exact h.nodes n hn)
    (updateStatus_reshape hr)
  unfold KBucket.updateStatus at hr
  split at hr
  · rename_i pos _
    split at hr
    · cases hr
    · rename_i node hnode
      have hn : nodeId node.value = node.key := h.nodes node (List.mem_of_getElem? hnode)
      simp only at hr
      split at hr
      all_goals first
        | (cases hr
           rename_i heq
           refine ⟨hnodes, fun q hq => ?_⟩
           rcases insert_pending_of_eq heq hq with hq | hq
           · -- the bucket reinserted into keeps the pending node or drops it
             split_ifs at hq
             exact h.pending q hq
           · rw [hq]
             exact hn)
        | cases hr
  · split at hr
    · rename_i p hp
      split at hr
      · cases hr
        refine ⟨hnodes, fun q hq => ?_⟩
        cases hq
        exact h.pending p hp
      · cases hr
        exact h
    · cases hr
      exact h

theorem Keyed.updateValue [DecidableEq V] {b : KBucket κ V} (hinv : b.Inv) (h : b.Keyed nodeId)
    {key : κ} {value : V} (hv : nodeId value = key) {r : UpdateResult × KBucket κ V}
    (hr : b.updateValue key value = some r) : r.2.Keyed nodeId := by
  have hnodes := h.of_reshape (fun x ⟨hk, hx⟩ => by rw [hk, hx, hv]) (updateValue_reshape hinv hr)
  unfold KBucket.updateValue at hr
  split at hr
  · split at hr
    · cases hr
    · simp only at hr
      split_ifs at hr <;> (cases hr; exact ⟨hnodes, h.pending⟩)
  · split at hr
    · rename_i p hp
      split at hr
      · rename_i hkey
        cases hr
        refine ⟨hnodes, fun q hq => ?_⟩
        cases hq
        simp only
        rw [hv, hkey]
      · cases hr
        exact h
    · cases hr
      exact h

theorem Keyed.remove {b : KBucket κ V} (hinv : b.Inv) (h : b.Keyed nodeId) {key : κ} {now : Nat}
    {r : Bool × KBucket κ V} (hr : b.remove key now = some r) : r.2.Keyed nodeId := by
  unfold KBucket.remove at hr
  split at hr
  · rename_i pos hpos
    obtain ⟨hlt, -⟩ := position_eq_some hpos
    obtain ⟨r', hr', rfl⟩ := Option.map_eq_some_iff.mp hr
    have h1 : Keyed nodeId (({ b with nodes := b.nodes.eraseIdx pos } : KBucket κ V)
        |>.updateFirstConnectedPosForRemoval pos) :=
      ⟨fun n hm => h.nodes n ((List.eraseIdx_sublist _ _).subset hm), h.pending⟩
    exact h1.applyPending (hinv.eraseIdx hlt) hr'
  · cases hr
    exact h

end KBucket

variable [DecidableEq κ] [DecidableEq V]

namespace BucketOp

/-- The operation adds only values that name their node's key. -/
def Keyed (nodeId : V → κ) : BucketOp κ V → Prop
  | .insert node _ => nodeId node.value = node.key
  | .updateValue key value => nodeId value = key
  | _ => True

variable {f : Filter V} {Q : List V → Prop} {nodeId : V → κ}

/-- The step lemma: an operation adding keyed values keeps the values keyed
and keeps a property its filter guards. -/
theorem apply_guarded (hQ : FilterGuards f Q) {b : KBucket κ V} (h : b.Inv)
    (hk : b.Keyed nodeId) (hf : b.filter = some f) (hq : Q (b.nodes.map (·.value)))
    {op : BucketOp κ V} (hop : op.Keyed nodeId) {b' : KBucket κ V} (happ : op.apply b = some b') :
    b'.Keyed nodeId ∧ Q (b'.nodes.map (·.value)) := by
  cases op with
  | insert node now =>
    cases happ
    have hnew : ∀ x : Node κ V, x = node → nodeId x.value = x.key := fun x hx => hx ▸ hop
    exact ⟨hk.insert_eq rfl hop,
      hQ.reshape hf nodeId hnew hk.nodes hq (KBucket.insert_reshape b node now)⟩
  | remove key now =>
    obtain ⟨r, hr, rfl⟩ := Option.map_eq_some_iff.mp happ
    exact ⟨hk.remove h hr, hQ.reshape hf nodeId (fun x ⟨p, hp, hx⟩ => hx ▸ hk.pending p hp)
      hk.nodes hq (KBucket.remove_reshape h hr)⟩
  | updatePending status =>
    cases happ
    exact ⟨hk.updatePending status, hq⟩
  | applyPending now =>
    obtain ⟨r, hr, rfl⟩ := Option.map_eq_some_iff.mp happ
    exact ⟨hk.applyPending h hr, hQ.reshape hf nodeId (fun x ⟨p, hp, hx⟩ => hx ▸ hk.pending p hp)
      hk.nodes hq (KBucket.applyPending_reshape h hr)⟩
  | updateStatus key state direction now =>
    obtain ⟨r, hr, rfl⟩ := Option.map_eq_some_iff.mp happ
    exact ⟨hk.updateStatus hr, hQ.reshape hf nodeId
      (fun x ⟨n, hn, hkey, hv⟩ => by rw [hkey, hv]; exact hk.nodes n hn)
      hk.nodes hq (KBucket.updateStatus_reshape hr)⟩
  | updateValue key value =>
    obtain ⟨r, hr, rfl⟩ := Option.map_eq_some_iff.mp happ
    exact ⟨hk.updateValue h hop hr, hQ.reshape hf nodeId
      (fun x ⟨hkey, hv⟩ => by rw [hkey, hv, hop]) hk.nodes hq (KBucket.updateValue_reshape h hr)⟩

/-- The run lemma: along every run of operations adding keyed values, a
property the bucket's filter guards holds of the bucket's values. -/
theorem run_guarded (hQ : FilterGuards f Q) {b : KBucket κ V} (h : b.Inv) (hk : b.Keyed nodeId)
    (hf : b.filter = some f) (hq : Q (b.nodes.map (·.value))) (ops : List (BucketOp κ V))
    (hops : ∀ op ∈ ops, op.Keyed nodeId) :
    ∃ b', run b ops = some b' ∧ Q (b'.nodes.map (·.value)) := by
  induction ops generalizing b with
  | nil => exact ⟨b, rfl, hq⟩
  | cons op ops ih =>
    obtain ⟨b₁, h₁, hinv₁, hp₁⟩ := apply_inv h op
    obtain ⟨hk₁, hq₁⟩ := apply_guarded hQ h hk hf hq (hops op (List.mem_cons_self ..)) h₁
    have hf₁ : b₁.filter = some f := (congrArg (·.2.1) hp₁).trans hf
    obtain ⟨b₂, h₂, hq₂⟩ := ih hinv₁ hk₁ hf₁ hq₁ fun op' hop' => hops op' (List.mem_cons_of_mem _ hop')
    exact ⟨b₂, by simp [run, h₁, h₂], hq₂⟩

end BucketOp

end Discv5.Kbucket
