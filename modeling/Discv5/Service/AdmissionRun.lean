import Discv5.Service.Admission

/-!
# Admission to the routing table, along every run

Each path of the service to the table keeps what the table holds admitted
(`AdmittedTable`), for a filter `F` that the configured `table_filter`
implies: `add_enr` and `discovered` check both the address and the filter,
a PONG takes its record from the table or from a query's untrusted
records, and a session checks the address only, so a session keeps the
table admitted when its record passes `F`. Every path also returns: none
reaches an `unreachable!` of the table.

Along a run (`TableEvent.run`) this gives two facts: with `F` the
configured filter, the table holds admitted records only as long as every
session's record passes it; with `F` accepting every record, every record
of the table has a contactable address and is stored under its node id,
whatever the sessions.
-/

namespace Discv5.Service

open Rust Kbucket

variable {Enr Pk : Type}

section Total

variable (api : EnrApi Enr Pk) (ipMode : IpMode) (now : Nat) {t : KBucketsTable Enr}

theorem findEntry_inv (h : t.Inv) (key : NodeId) :
    ∃ r, findEntry now t key = some r ∧ r.2.Inv := by
  unfold findEntry
  split
  · rename_i i _
    obtain ⟨t₁, ht₁, h₁, -⟩ := h.applyPendingAt i now
    simp only [ht₁, Option.bind_eq_bind, Option.bind_some]
    split <;> exact ⟨_, rfl, h₁⟩
  · exact ⟨_, rfl, h⟩

theorem removeStaleEntry_inv (h : t.Inv) (key : NodeId) (stale : Enr → Bool) :
    ∃ t', removeStaleEntry now t key stale = some t' ∧ t'.Inv := by
  unfold removeStaleEntry
  split
  · rename_i i _
    obtain ⟨t₁, ht₁, h₁, -⟩ := h.applyPendingAt i now
    simp only [ht₁, Option.bind_eq_bind, Option.bind_some]
    split_ifs
    · obtain ⟨r, hr, hinv⟩ := (h₁.buckets i).remove key now
      exact ⟨_, by simp [hr], h₁.setBucket hinv ((h₁.placed i).remove hr)⟩
    · exact ⟨_, rfl, h₁⟩
  · exact ⟨_, rfl, h⟩

theorem findEnr_inv (h : t.Inv) (untrustedEnrs : List Enr) (nodeId : NodeId) :
    ∃ r, findEnr api now t untrustedEnrs nodeId = some r ∧ r.2.Inv := by
  obtain ⟨⟨entry, t₁⟩, ht₁, h₁⟩ := findEntry_inv now h nodeId
  simp only [findEnr, ht₁, Option.bind_eq_bind, Option.bind_some]
  split <;> exact ⟨_, rfl, h₁⟩

variable [DecidableEq Enr]

theorem connectionUpdated_inv (h : t.Inv) (nodeId : NodeId) (status : ConnectionStatus Enr) :
    ∃ t', connectionUpdated now t nodeId status = some t' ∧ t'.Inv := by
  cases status with
  | connected enr direction =>
    obtain ⟨r, hr, hinv, -⟩ := h.insertOrUpdate nodeId enr ⟨direction, .connected⟩ now
    exact ⟨r.2, by simp [connectionUpdated, hr], hinv⟩
  | pongReceived enr =>
    obtain ⟨r, hr, hinv, -⟩ := h.updateNode nodeId enr (some .connected) now
    exact ⟨r.2, by simp [connectionUpdated, hr], hinv⟩
  | disconnected =>
    obtain ⟨r, hr, hinv, -⟩ := h.updateNodeStatus nodeId .disconnected none now
    exact ⟨r.2, by simp [connectionUpdated, hr], hinv⟩

theorem injectSessionEstablished_inv (h : t.Inv) (enr : Enr)
    (direction : Kbucket.ConnectionDirection) :
    ∃ t', injectSessionEstablished api ipMode now t enr direction = some t' ∧ t'.Inv := by
  unfold injectSessionEstablished
  split_ifs
  · exact ⟨t, rfl, h⟩
  · exact connectionUpdated_inv now h _ _

theorem addEnr_inv (h : t.Inv) (tableFilter : Enr → Bool) (enr : Enr) :
    ∃ r, addEnr api ipMode now tableFilter t enr = some r ∧ r.2.Inv := by
  unfold addEnr
  split_ifs
  · exact ⟨_, rfl, h⟩
  · exact ⟨_, rfl, h⟩
  · obtain ⟨⟨res, t₁⟩, hr, hinv, -⟩ :=
      h.insertOrUpdate (api.nodeId enr) enr ⟨.incoming, .disconnected⟩ now
    simp only [hr, Option.bind_eq_bind, Option.bind_some]
    exact ⟨_, rfl, hinv⟩

theorem discoveredRetain_inv (h : t.Inv) (tableFilter : Enr → Bool) (localId source : NodeId)
    (enr : Enr) :
    ∃ r, discoveredRetain api ipMode now tableFilter localId source t enr = some r ∧ r.2.Inv := by
  unfold discoveredRetain
  split_ifs
  · exact ⟨_, rfl, h⟩
  · obtain ⟨⟨entry, t₁⟩, ht₁, h₁⟩ := findEntry_inv now h (api.nodeId enr)
    simp only [ht₁, Option.bind_eq_bind, Option.bind_some]
    split_ifs
    · obtain ⟨⟨res, t₂⟩, ht₂, h₂, -⟩ := h₁.updateNode (api.nodeId enr) enr none now
      simp only [ht₂, Option.bind_some]
      split_ifs <;> exact ⟨_, rfl, h₂⟩
    · exact ⟨_, rfl, h₁⟩
  · obtain ⟨t₁, ht₁, h₁⟩ := removeStaleEntry_inv now h (api.nodeId enr)
      fun value => decide (api.seq value < api.seq enr)
    simp only [ht₁, Option.bind_eq_bind, Option.bind_some]
    exact ⟨_, rfl, h₁⟩

theorem discovered_inv (tableFilter : Enr → Bool) (localId source : NodeId) :
    ∀ (enrs : List Enr) {t : KBucketsTable Enr}, t.Inv →
      ∃ r, discovered api ipMode now tableFilter localId source t enrs = some r ∧ r.2.Inv
  | [], t, h => ⟨_, rfl, h⟩
  | enr :: enrs, t, h => by
    obtain ⟨⟨keep, t₁⟩, ht₁, h₁⟩ := discoveredRetain_inv api ipMode now
      h tableFilter localId source enr
    obtain ⟨⟨kept, t₂⟩, ht₂, h₂⟩ := discovered_inv tableFilter localId source enrs h₁
    simp only [discovered, ht₁, ht₂, Option.bind_eq_bind, Option.bind_some]
    exact ⟨_, rfl, h₂⟩

theorem handlePong_inv (h : t.Inv) (untrustedEnrs : List Enr) (nodeId : NodeId) :
    ∃ t', handlePong api ipMode now t untrustedEnrs nodeId = some t' ∧ t'.Inv := by
  obtain ⟨⟨found, t₁⟩, ht₁, h₁⟩ := findEnr_inv api now h untrustedEnrs nodeId
  simp only [handlePong, ht₁, Option.bind_eq_bind, Option.bind_some]
  split
  · split_ifs
    · exact connectionUpdated_inv now h₁ _ _
    · exact ⟨_, rfl, h₁⟩
  · exact ⟨_, rfl, h₁⟩

end Total

section Preservation

variable {api : EnrApi Enr Pk} {ipMode : IpMode} {F : Enr → Bool} {now : Nat}

/-- The table an operation returns keeps the invariant, by the lemma that
the operation returns one that does. -/
theorem inv_of_result {V α : Type} {t : KBucketsTable V}
    {x : Option (α × KBucketsTable V)} {r : α × KBucketsTable V}
    (hx : ∃ r', x = some r' ∧ r'.2.Inv ∧ r'.2.localKey = t.localKey) (hr : x = some r) : r.2.Inv := by
  obtain ⟨r', hr', hinv, -⟩ := hx
  rw [hr, Option.some.injEq] at hr'
  exact hr' ▸ hinv

namespace AdmittedTable

variable {t : KBucketsTable Enr}

theorem applyPendingAt (h : AdmittedTable api ipMode F t) {i : Fin numBuckets}
    {t' : KBucketsTable Enr} (ht : t.applyPendingAt i now = some t') :
    AdmittedTable api ipMode F t' := by
  obtain ⟨t₁, ht₁, hinv₁, -⟩ := h.inv.applyPendingAt i now
  rw [ht, Option.some.injEq] at ht₁
  subst ht₁
  exact ⟨hinv₁, h.admitted.applyPendingAt h.inv ht⟩

theorem updateNodeStatus (h : AdmittedTable api ipMode F t) {key : NodeId} {state : ConnectionState}
    {direction : Option Kbucket.ConnectionDirection} {r : UpdateResult × KBucketsTable Enr}
    (hr : t.updateNodeStatus key state direction now = some r) : AdmittedTable api ipMode F r.2 :=
  ⟨inv_of_result (h.inv.updateNodeStatus key state direction now) hr, h.admitted.updateNodeStatus h.inv hr⟩

theorem remove (h : AdmittedTable api ipMode F t) {key : NodeId} {r : Bool × KBucketsTable Enr}
    (hr : t.remove key now = some r) : AdmittedTable api ipMode F r.2 :=
  ⟨inv_of_result (h.inv.remove key now) hr, h.admitted.remove h.inv hr⟩

/-- A bucket's node removed, after its pending node was applied. -/
theorem removeAt (h : AdmittedTable api ipMode F t) {i : Fin numBuckets} {key : NodeId}
    {r : Bool × KBucket NodeId Enr} (hr : (t.buckets i).remove key now = some r) :
    AdmittedTable api ipMode F (t.setBucket i r.2) := by
  obtain ⟨r₁, hr₁, hinv₁⟩ := (h.inv.buckets i).remove key now
  rw [hr, Option.some.injEq] at hr₁
  subst hr₁
  exact ⟨h.inv.setBucket hinv₁ ((h.inv.placed i).remove hr),
    h.admitted.setBucket ((h.admitted i).remove (h.inv.buckets i) hr)⟩

/-- `iter` keeps the table admitted. -/
theorem iter (h : AdmittedTable api ipMode F t) {r : List (Node NodeId Enr) × KBucketsTable Enr}
    (hr : t.iter now = some r) : AdmittedTable api ipMode F r.2 :=
  ⟨inv_of_result (h.inv.iter now) hr, (h.admitted.iter h.inv hr).1⟩

theorem nodesByDistances (h : AdmittedTable api ipMode F t) {log2Distances : List Nat}
    {maxNodes : Nat} {nodes : List (Node NodeId Enr)} {t' : KBucketsTable Enr}
    (hr : t.nodesByDistances log2Distances maxNodes now = some (nodes, t')) :
    AdmittedTable api ipMode F t' :=
  have hsat := h.admitted.nodesByDistances h.inv hr
  ⟨hsat.2.1, hsat.1⟩

theorem takeAppliedPending (h : AdmittedTable api ipMode F t) :
    AdmittedTable api ipMode F t.takeAppliedPending.2 :=
  ⟨h.inv.takeAppliedPending.1, h.admitted.takeAppliedPending⟩

/-- A `closest_*` iterator over an admitted table leaves it admitted, and
what it yields satisfies what its items do. -/
theorem take {Out : Type} {R : Out → Prop} {it : ClosestIter Enr Out}
    (h : it.ItemsSat (Admitted api ipMode F) R) (now n : Nat) :
    ∃ r, it.take now n = some r ∧ AdmittedTable api ipMode F r.2.table ∧ ∀ x ∈ r.1, R x := by
  obtain ⟨r, hr, -⟩ := ClosestIter.take_inv now n it h.inv
  obtain ⟨h', hitems⟩ := h.take now n hr
  exact ⟨r, hr, ⟨h'.inv, h'.table⟩, hitems⟩

section ValueEq

variable [DecidableEq Enr]

theorem insertOrUpdate (h : AdmittedTable api ipMode F t) {key : NodeId} {value : Enr}
    (hv : Admitted api ipMode F key value) {status : NodeStatus}
    {r : TableInsertResult × KBucketsTable Enr} (hr : t.insertOrUpdate key value status now = some r) :
    AdmittedTable api ipMode F r.2 :=
  ⟨inv_of_result (h.inv.insertOrUpdate key value status now) hr, h.admitted.insertOrUpdate h.inv hv hr⟩

theorem updateNode (h : AdmittedTable api ipMode F t) {key : NodeId} {value : Enr}
    (hv : Admitted api ipMode F key value) {state : Option ConnectionState}
    {r : UpdateResult × KBucketsTable Enr} (hr : t.updateNode key value state now = some r) :
    AdmittedTable api ipMode F r.2 :=
  ⟨inv_of_result (h.inv.updateNode key value state now) hr, h.admitted.updateNode h.inv hv hr⟩

end ValueEq

/-- What `entry` finds is a record of the table under its key. -/
theorem findEntry (h : AdmittedTable api ipMode F t) {key : NodeId}
    {r : EntryFound Enr × KBucketsTable Enr} (hr : Service.findEntry now t key = some r) :
    AdmittedTable api ipMode F r.2 ∧
      ∀ v, r.1 = .present v ∨ r.1 = .pending v → Admitted api ipMode F key v := by
  unfold Service.findEntry at hr
  split at hr
  · rename_i i _
    simp only [Option.bind_eq_bind, Option.bind_eq_some_iff] at hr
    obtain ⟨t₁, ht₁, hr⟩ := hr
    have h₁ := h.applyPendingAt ht₁
    split at hr
    · -- a present node: the first of the bucket with the key
      rename_i node hnode
      simp only [Option.pure_def, Option.some.injEq] at hr
      subst hr
      refine ⟨h₁, fun v hv => ?_⟩
      simp only [EntryFound.present.injEq, reduceCtorEq, or_false] at hv
      subst hv
      have hkey : node.key = key := by simpa using List.find?_some hnode
      exact hkey ▸ (h₁.admitted i).nodes node (List.mem_of_find?_eq_some hnode)
    · -- the pending node of the key
      rename_i p _ hp
      simp only [Option.pure_def, Option.some.injEq] at hr
      subst hr
      refine ⟨h₁, fun v hv => ?_⟩
      simp only [reduceCtorEq, EntryFound.pending.injEq, false_or] at hv
      subst hv
      obtain ⟨hp', hkey⟩ := Option.filter_eq_some_iff.mp hp
      simp only [decide_eq_true_eq] at hkey
      exact hkey ▸ (h₁.admitted i).pending p hp'
    · simp only [Option.pure_def, Option.some.injEq] at hr
      subst hr
      exact ⟨h₁, fun v hv => by simp at hv⟩
  · simp only [Option.pure_def, Option.some.injEq] at hr
    subst hr
    exact ⟨h, fun v hv => by simp at hv⟩

theorem removeStaleEntry (h : AdmittedTable api ipMode F t) {key : NodeId} {stale : Enr → Bool}
    {t' : KBucketsTable Enr} (ht : Service.removeStaleEntry now t key stale = some t') :
    AdmittedTable api ipMode F t' := by
  unfold Service.removeStaleEntry at ht
  split at ht
  · rename_i i _
    simp only [Option.bind_eq_bind, Option.bind_eq_some_iff] at ht
    obtain ⟨t₁, ht₁, ht⟩ := ht
    have h₁ := h.applyPendingAt ht₁
    split_ifs at ht
    · simp only [Option.pure_def, Option.bind_eq_some_iff, Option.some.injEq] at ht
      obtain ⟨r, hr, rfl⟩ := ht
      exact h₁.removeAt hr
    · simp only [Option.pure_def, Option.some.injEq] at ht
      exact ht ▸ h₁
  · simp only [Option.pure_def, Option.some.injEq] at ht
    exact ht ▸ h

/-- The record `find_enr` returns is admitted under the node id, when the
untrusted records are admitted under theirs. -/
theorem findEnr (h : AdmittedTable api ipMode F t) {untrustedEnrs : List Enr}
    (hu : ∀ e ∈ untrustedEnrs, Admitted api ipMode F (api.nodeId e) e) {nodeId : NodeId}
    {r : Option Enr × KBucketsTable Enr} (hr : Service.findEnr api now t untrustedEnrs nodeId = some r) :
    AdmittedTable api ipMode F r.2 ∧ ∀ enr, r.1 = some enr → Admitted api ipMode F nodeId enr := by
  simp only [Service.findEnr, Option.bind_eq_bind, Option.bind_eq_some_iff] at hr
  obtain ⟨⟨entry, t₁⟩, ht₁, hr⟩ := hr
  obtain ⟨h₁, hentry⟩ := h.findEntry ht₁
  split at hr
  · -- a present node of the table
    rename_i value hvalue
    cases hr
    exact ⟨h₁, fun enr he => (Option.some.inj he) ▸ hentry value (.inl hvalue)⟩
  · -- the first untrusted record with the node id
    cases hr
    refine ⟨h₁, fun enr he => ?_⟩
    have hid : api.nodeId enr = nodeId := by simpa using List.find?_some he
    exact hid ▸ hu enr (List.mem_of_find?_eq_some he)

end AdmittedTable

/-- The record a connection status writes to the table is admitted under the node's key. -/
def ConnectionStatus.Admits (api : EnrApi Enr Pk) (ipMode : IpMode) (F : Enr → Bool)
    (nodeId : NodeId) : ConnectionStatus Enr → Prop
  | .connected enr _ | .pongReceived enr => Admitted api ipMode F nodeId enr
  | .disconnected => True

namespace AdmittedTable

variable [DecidableEq Enr] {t : KBucketsTable Enr}

theorem connectionUpdated (h : AdmittedTable api ipMode F t) {nodeId : NodeId}
    {status : ConnectionStatus Enr} (hs : status.Admits api ipMode F nodeId) {t' : KBucketsTable Enr}
    (ht : Service.connectionUpdated now t nodeId status = some t') : AdmittedTable api ipMode F t' := by
  cases status with
  | connected enr direction =>
    obtain ⟨r, hr, rfl⟩ := Option.map_eq_some_iff.mp ht
    exact h.insertOrUpdate hs hr
  | pongReceived enr =>
    obtain ⟨r, hr, rfl⟩ := Option.map_eq_some_iff.mp ht
    exact h.updateNode hs hr
  | disconnected =>
    obtain ⟨r, hr, rfl⟩ := Option.map_eq_some_iff.mp ht
    exact h.updateNodeStatus hr

/-- A session keeps the table admitted when its record passes the filter. -/
theorem injectSessionEstablished (h : AdmittedTable api ipMode F t) {enr : Enr}
    (hF : F enr = true) {direction : Kbucket.ConnectionDirection} {t' : KBucketsTable Enr}
    (ht : Service.injectSessionEstablished api ipMode now t enr direction = some t') :
    AdmittedTable api ipMode F t' := by
  unfold Service.injectSessionEstablished at ht
  split_ifs at ht with hnone
  · simp only [Option.some.injEq] at ht
    exact ht ▸ h
  · -- the address was checked: the record is admitted under its node id
    have hcontact : (ipMode.getContactableAddr api enr).isSome := by
      simpa [Option.isNone_iff_eq_none, Option.isSome_iff_ne_none] using hnone
    have hs : ∀ d, (ConnectionStatus.connected enr d).Admits api ipMode F (api.nodeId enr) :=
      fun _ => ⟨hcontact, hF, rfl⟩
    exact h.connectionUpdated (hs _) ht

/-- `add_enr` keeps the table admitted under a filter its own filter implies. -/
theorem addEnr (h : AdmittedTable api ipMode F t) {tableFilter : Enr → Bool}
    (hF : ∀ e, tableFilter e = true → F e = true) {enr : Enr}
    {r : Except String Unit × KBucketsTable Enr}
    (hr : Service.addEnr api ipMode now tableFilter t enr = some r) : AdmittedTable api ipMode F r.2 := by
  unfold Service.addEnr at hr
  split_ifs at hr with hnone hfilter
  · cases hr
    exact h
  · cases hr
    exact h
  · have hcontact : (ipMode.getContactableAddr api enr).isSome := by
      simpa [Option.isNone_iff_eq_none, Option.isSome_iff_ne_none] using hnone
    have htf : tableFilter enr = true := by simpa using hfilter
    simp only [Option.bind_eq_bind, Option.pure_def, Option.bind_eq_some_iff] at hr
    obtain ⟨r', hr', hr⟩ := hr
    cases hr
    exact h.insertOrUpdate ⟨hcontact, hF enr htf, rfl⟩ hr'

/-- One record of a NODES response: the table stays admitted, and a record
kept for the query is admitted under its node id. -/
theorem discoveredRetain (h : AdmittedTable api ipMode F t) {tableFilter : Enr → Bool}
    (hF : ∀ e, tableFilter e = true → F e = true) {localId source : NodeId} {enr : Enr}
    {r : Bool × KBucketsTable Enr}
    (hr : Service.discoveredRetain api ipMode now tableFilter localId source t enr = some r) :
    AdmittedTable api ipMode F r.2 ∧ (r.1 = true → Admitted api ipMode F (api.nodeId enr) enr) := by
  unfold Service.discoveredRetain at hr
  split_ifs at hr with hlocal hpass
  · cases hr
    exact ⟨h, fun hk => by cases hk⟩
  · -- the record passed both checks
    simp only [Bool.and_eq_true] at hpass
    have hadm : Admitted api ipMode F (api.nodeId enr) enr := ⟨hpass.2, hF enr hpass.1, rfl⟩
    simp only [Option.bind_eq_bind, Option.bind_eq_some_iff] at hr
    obtain ⟨⟨entry, t₁⟩, ht₁, hr⟩ := hr
    have h₁ := (h.findEntry ht₁).1
    split_ifs at hr
    · simp only [Option.pure_def, Option.bind_eq_some_iff] at hr
      obtain ⟨⟨res, t₂⟩, ht₂, hr⟩ := hr
      have h₂ := h₁.updateNode hadm ht₂
      split_ifs at hr <;> (cases hr; exact ⟨h₂, fun _ => hadm⟩)
    · cases hr
      exact ⟨h₁, fun _ => hadm⟩
  · simp only [Option.bind_eq_bind, Option.pure_def, Option.bind_eq_some_iff] at hr
    obtain ⟨t₁, ht₁, hr⟩ := hr
    cases hr
    exact ⟨h.removeStaleEntry ht₁, fun hk => by cases hk⟩

/-- The run lemma of `discovered`, by induction on the records of the
response: the table stays admitted, and so is every record kept. -/
theorem discovered {tableFilter : Enr → Bool} (hF : ∀ e, tableFilter e = true → F e = true)
    {localId source : NodeId} :
    ∀ (enrs : List Enr) {t : KBucketsTable Enr}, AdmittedTable api ipMode F t →
      ∀ {r : List Enr × KBucketsTable Enr},
        Service.discovered api ipMode now tableFilter localId source t enrs = some r →
        AdmittedTable api ipMode F r.2 ∧ ∀ e ∈ r.1, Admitted api ipMode F (api.nodeId e) e
  | [], t, h, r, hr => by
    cases hr
    exact ⟨h, fun e he => by cases he⟩
  | enr :: enrs, t, h, r, hr => by
    simp only [Service.discovered, Option.bind_eq_bind, Option.pure_def,
      Option.bind_eq_some_iff] at hr
    obtain ⟨⟨keep, t₁⟩, ht₁, ⟨kept, t₂⟩, ht₂, hr⟩ := hr
    cases hr
    obtain ⟨h₁, hkeep⟩ := h.discoveredRetain hF ht₁
    obtain ⟨h₂, hkept⟩ := discovered hF enrs h₁ ht₂
    refine ⟨h₂, fun e he => ?_⟩
    -- the record itself is in the list only when it was kept
    cases keep with
    | false => exact hkept e he
    | true =>
      rcases List.mem_cons.mp he with rfl | he
      · exact hkeep rfl
      · exact hkept e he

/-- A PONG keeps the table admitted, when the untrusted records are. -/
theorem handlePong (h : AdmittedTable api ipMode F t) {untrustedEnrs : List Enr}
    (hu : ∀ e ∈ untrustedEnrs, Admitted api ipMode F (api.nodeId e) e) {nodeId : NodeId}
    {t' : KBucketsTable Enr} (ht : Service.handlePong api ipMode now t untrustedEnrs nodeId = some t') :
    AdmittedTable api ipMode F t' := by
  simp only [Service.handlePong, Option.bind_eq_bind, Option.bind_eq_some_iff] at ht
  obtain ⟨⟨found, t₁⟩, ht₁, ht⟩ := ht
  obtain ⟨h₁, hfound⟩ := h.findEnr hu ht₁
  split at ht
  · rename_i enr henr
    split_ifs at ht
    · have hs : (ConnectionStatus.pongReceived enr).Admits api ipMode F nodeId := hfound enr henr
      exact h₁.connectionUpdated hs ht
    · cases ht
      exact h₁
  · cases ht
    exact h₁

end AdmittedTable

end Preservation

/-! ## Along a run -/

section Run

variable {api : EnrApi Enr Pk} {ipMode : IpMode} {F : Enr → Bool}

/-- The records of the table and of the queries are admitted, each record
of a query under its own node id. -/
structure TableState.Admits (api : EnrApi Enr Pk) (ipMode : IpMode) (F : Enr → Bool)
    (s : TableState Enr) : Prop where
  table : AdmittedTable api ipMode F s.kbuckets
  queries : ∀ q ∈ s.queries, ∀ e ∈ q, Admitted api ipMode F (api.nodeId e) e

/-- A record admitted under a key is admitted under its node id, which is the key. -/
theorem Admitted.self {key : NodeId} {enr : Enr} (h : Admitted api ipMode F key enr) :
    Admitted api ipMode F (api.nodeId enr) enr :=
  h.2.2 ▸ h

/-- What `push` leaves in a query's records was there or was kept. -/
theorem mem_pushUntrusted (api : EnrApi Enr Pk) :
    ∀ {untrustedEnrs kept : List Enr} {e : Enr}, e ∈ pushUntrusted api untrustedEnrs kept →
      e ∈ untrustedEnrs ∨ e ∈ kept
  | untrustedEnrs, [], e, he => .inl he
  | untrustedEnrs, enr :: kept, e, he => by
    simp only [pushUntrusted] at he
    rcases mem_pushUntrusted api he with he | he
    · -- the record was already there, or is the one this turn pushed
      split_ifs at he
      · exact .inl he
      · rcases List.mem_append.mp he with he | he
        · exact .inl he
        · exact .inr (List.mem_singleton.mp he ▸ List.mem_cons_self)
    · exact .inr (List.mem_cons_of_mem _ he)

/-- A property of every item of a list holds after one item is modified by
a map that keeps it. -/
theorem forall_mem_modify {α : Type} {Q : α → Prop} {l : List α} {i : Nat} {f : α → α}
    (hl : ∀ x ∈ l, Q x) (hf : ∀ x, Q x → Q (f x)) : ∀ x ∈ l.modify i f, Q x := by
  intro x hx
  obtain ⟨j, hj, rfl⟩ := List.getElem_of_mem hx
  have hj' : j < l.length := by simpa using hj
  rw [List.getElem_modify]
  split
  · exact hf _ (hl _ (List.getElem_mem hj'))
  · exact hl _ (List.getElem_mem hj')

namespace TableState.Admits

variable {s : TableState Enr}

/-- `find_enr` and a PONG read the records of every query. -/
theorem untrusted (h : s.Admits api ipMode F) :
    ∀ e ∈ s.queries.flatten, Admitted api ipMode F (api.nodeId e) e := by
  intro e he
  obtain ⟨q, hq, he⟩ := List.mem_flatten.mp he
  exact h.queries q hq e he

theorem withTable (h : s.Admits api ipMode F) {t : KBucketsTable Enr}
    (ht : AdmittedTable api ipMode F t) : ({ s with kbuckets := t } : TableState Enr).Admits api ipMode F :=
  ⟨ht, h.queries⟩

/-- A new query, or none, whose records are admitted under their node ids. -/
theorem addQuery (h : s.Admits api ipMode F) {t : KBucketsTable Enr}
    (ht : AdmittedTable api ipMode F t) {closest : List Enr}
    (hc : ∀ e ∈ closest, Admitted api ipMode F (api.nodeId e) e) (b : Bool) :
    (⟨t, if b then s.queries else s.queries ++ [closest]⟩ : TableState Enr).Admits api ipMode F := by
  refine ⟨ht, fun q hq => ?_⟩
  split_ifs at hq
  · exact h.queries q hq
  · rcases List.mem_append.mp hq with hq | hq
    · exact h.queries q hq
    · exact List.mem_singleton.mp hq ▸ hc

/-- The records a NODES response kept reach its query, if it is still going. -/
theorem pushQuery (h : s.Admits api ipMode F) {t : KBucketsTable Enr}
    (ht : AdmittedTable api ipMode F t) {kept : List Enr}
    (hk : ∀ e ∈ kept, Admitted api ipMode F (api.nodeId e) e) (query : Option Nat) :
    (⟨t, match query with
      | some q => s.queries.modify q fun untrustedEnrs => pushUntrusted api untrustedEnrs kept
      | none => s.queries⟩ : TableState Enr).Admits api ipMode F := by
  refine ⟨ht, ?_⟩
  cases query with
  | none => exact h.queries
  | some q =>
    refine forall_mem_modify h.queries fun u hu e he => ?_
    rcases mem_pushUntrusted api he with he | he
    · exact hu e he
    · exact hk e he

end TableState.Admits

variable [DecidableEq Enr] {tableFilter : Enr → Bool} {localId : NodeId}

/-- The step lemma: every event returns, and keeps the records admitted
under a filter that the configured one implies, when a session's record
passes it. -/
theorem TableEvent.apply_admits (hF : ∀ e, tableFilter e = true → F e = true)
    {s : TableState Enr} (h : s.Admits api ipMode F) (now : Nat) (ev : TableEvent Enr)
    (hsession : ∀ enr direction, ev = .sessionEstablished enr direction → F enr = true) :
    ∃ s', ev.apply api ipMode tableFilter localId now s = some s' ∧ s'.Admits api ipMode F := by
  have ht := h.table
  cases ev with
  | sessionEstablished enr direction =>
    obtain ⟨t', ht', -⟩ := injectSessionEstablished_inv api ipMode now
      ht.inv enr direction
    exact TableOp.exists_map_of_exists
      ⟨t', ht', h.withTable (ht.injectSessionEstablished (hsession enr direction rfl) ht')⟩
  | startQuery target n =>
    obtain ⟨⟨closest, it⟩, hr, ht', hc⟩ :=
      AdmittedTable.take (KBucketsTable.closestValues_itemsSat ht.inv ht.admitted target) now n
    exact TableOp.exists_map_of_exists ⟨_, hr, h.addQuery ht'
      (fun e he => by
        obtain ⟨x, hx, rfl⟩ := List.mem_map.mp he
        exact (hc x hx).self) _⟩
  | startPredicateQuery target predicate n =>
    obtain ⟨⟨closest, it⟩, hr, ht', hc⟩ := AdmittedTable.take
      (KBucketsTable.closestValuesPredicate_itemsSat ht.inv ht.admitted target predicate) now n
    exact TableOp.exists_map_of_exists ⟨_, hr, h.addQuery ht'
      (fun e he => by
        obtain ⟨x, hx, rfl⟩ := List.mem_map.mp he
        exact (hc x hx).self) _⟩
  | nodesResponse source enrs query =>
    obtain ⟨⟨kept, t'⟩, hr, -⟩ := discovered_inv api ipMode now
      tableFilter localId source enrs ht.inv
    obtain ⟨ht', hk⟩ := AdmittedTable.discovered hF enrs ht hr
    exact TableOp.exists_map_of_exists ⟨_, hr, h.pushQuery ht' hk query⟩
  | queryFinished q =>
    exact ⟨_, rfl, ht, fun u hu => h.queries u (List.mem_of_mem_eraseIdx hu)⟩
  | pong nodeId =>
    obtain ⟨t', ht', -⟩ := handlePong_inv api ipMode now ht.inv
      s.queries.flatten nodeId
    exact TableOp.exists_map_of_exists ⟨t', ht', h.withTable (ht.handlePong h.untrusted ht')⟩
  | findEnr nodeId =>
    obtain ⟨r, hr, -⟩ := findEnr_inv api now ht.inv s.queries.flatten nodeId
    exact TableOp.exists_map_of_exists ⟨r, hr, h.withTable (ht.findEnr h.untrusted hr).1⟩
  | entry key =>
    obtain ⟨r, hr, -⟩ := findEntry_inv now ht.inv key
    exact TableOp.exists_map_of_exists ⟨r, hr, h.withTable (ht.findEntry hr).1⟩
  | iter =>
    obtain ⟨r, hr, -⟩ := ht.inv.iter now
    exact TableOp.exists_map_of_exists ⟨r, hr, h.withTable (ht.iter hr)⟩
  | nodesByDistances log2Distances maxNodes =>
    obtain ⟨⟨nodes, t'⟩, hr, -⟩ := ht.inv.nodesByDistances log2Distances maxNodes now
    exact TableOp.exists_map_of_exists ⟨_, hr, h.withTable (ht.nodesByDistances hr)⟩
  | takeAppliedPending => exact ⟨_, rfl, h.withTable ht.takeAppliedPending⟩
  | unverifiableEnr nodeId =>
    obtain ⟨r, hr, -⟩ := ht.inv.remove nodeId now
    exact TableOp.exists_map_of_exists ⟨r, hr, h.withTable (ht.remove hr)⟩
  | requestFailed nodeId =>
    obtain ⟨t', ht', -⟩ := connectionUpdated_inv now ht.inv nodeId .disconnected
    have hs : (ConnectionStatus.disconnected : ConnectionStatus Enr).Admits api ipMode F nodeId :=
      trivial
    exact TableOp.exists_map_of_exists ⟨t', ht', h.withTable (ht.connectionUpdated hs ht')⟩
  | addEnr enr =>
    obtain ⟨r, hr, -⟩ := addEnr_inv api ipMode now ht.inv tableFilter enr
    exact TableOp.exists_map_of_exists ⟨r, hr, h.withTable (ht.addEnr hF hr)⟩
  | removeNode nodeId =>
    obtain ⟨r, hr, -⟩ := ht.inv.remove nodeId now
    exact TableOp.exists_map_of_exists ⟨r, hr, h.withTable (ht.remove hr)⟩
  | disconnectNode nodeId =>
    obtain ⟨r, hr, -⟩ := ht.inv.updateNodeStatus nodeId .disconnected none now
    exact TableOp.exists_map_of_exists ⟨r, hr, h.withTable (ht.updateNodeStatus hr)⟩

/-- The run lemma, by induction on the events. -/
theorem TableEvent.run_admits (hF : ∀ e, tableFilter e = true → F e = true) :
    ∀ (evs : List (Nat × TableEvent Enr)) {s : TableState Enr}, s.Admits api ipMode F →
      (∀ now enr direction, (now, .sessionEstablished enr direction) ∈ evs → F enr = true) →
      ∃ s', TableEvent.run api ipMode tableFilter localId s evs = some s' ∧ s'.Admits api ipMode F
  | [], s, h, _ => ⟨s, rfl, h⟩
  | (now, ev) :: evs, s, h, hsession => by
    obtain ⟨s₁, hs₁, h₁⟩ : ∃ s₁, ev.apply api ipMode tableFilter localId now s = some s₁ ∧
        s₁.Admits api ipMode F := TableEvent.apply_admits hF h now ev fun enr direction hev =>
      hsession now enr direction (hev ▸ List.mem_cons_self)
    obtain ⟨s₂, hs₂, h₂⟩ := TableEvent.run_admits hF evs h₁ fun now' enr direction hmem =>
      hsession now' enr direction (List.mem_cons_of_mem _ hmem)
    exact ⟨s₂, by simp [TableEvent.run, hs₁, hs₂], h₂⟩

end Run

section FromNew

variable [DecidableEq Enr] (api : EnrApi Enr Pk) (ipMode : IpMode) (tableFilter : Enr → Bool)
  (localId localKey : NodeId) (pendingTimeout maxIncoming : Nat)
  (kbucketsFilter bucketFilter : Option (Kbucket.Filter Enr))

/-- Every run of the service from `Discv5::new` returns, and its table holds
records admitted under any filter `F` that the configured filter implies,
as long as the record of every session passes `F`. -/
theorem table_admission_run {F : Enr → Bool} (hF : ∀ e, tableFilter e = true → F e = true)
    (evs : List (Nat × TableEvent Enr))
    (hsession : ∀ now enr direction, (now, .sessionEstablished enr direction) ∈ evs → F enr = true) :
    ∃ s, TableEvent.run api ipMode tableFilter localId
        ⟨.new localKey pendingTimeout maxIncoming kbucketsFilter bucketFilter, []⟩ evs = some s ∧
      s.kbuckets.NodesSat fun n => Admitted api ipMode F n.key n.value := by
  have h₀ : TableState.Admits api ipMode F
      ⟨.new localKey pendingTimeout maxIncoming kbucketsFilter bucketFilter, []⟩ :=
    ⟨⟨.new _ _ _ _ _, .new _ _ _ _ _⟩, fun q hq => by cases hq⟩
  obtain ⟨s, hs, h⟩ := TableEvent.run_admits hF evs h₀ hsession
  exact ⟨s, hs, h.table.admitted⟩

/-- Whatever the sessions, every record of the table along a run has a
contactable address under the IP mode and is stored under its node id. -/
theorem table_records_contactable_keyed (evs : List (Nat × TableEvent Enr)) :
    ∃ s, TableEvent.run api ipMode tableFilter localId
        ⟨.new localKey pendingTimeout maxIncoming kbucketsFilter bucketFilter, []⟩ evs = some s ∧
      s.kbuckets.NodesSat fun n =>
        (ipMode.getContactableAddr api n.value).isSome ∧ n.key = api.nodeId n.value := by
  -- the filter that accepts every record is implied by any, and passed by every session
  obtain ⟨s, hs, h⟩ : ∃ s, TableEvent.run api ipMode tableFilter localId
        ⟨.new localKey pendingTimeout maxIncoming kbucketsFilter bucketFilter, []⟩ evs = some s ∧
      s.kbuckets.NodesSat fun n => Admitted api ipMode (fun _ => true) n.key n.value :=
    table_admission_run api ipMode tableFilter localId localKey pendingTimeout maxIncoming
      kbucketsFilter bucketFilter (fun _ _ => rfl) evs fun _ _ _ _ => rfl
  refine ⟨s, hs, fun i => ⟨fun n hn => ?_, fun p hp => ?_⟩⟩
  · exact ⟨((h i).nodes n hn).1, ((h i).nodes n hn).2.2⟩
  · exact ⟨((h i).pending p hp).1, ((h i).pending p hp).2.2⟩

end FromNew

end Discv5.Service
