import Mathlib
import Discv5.Lib.ListMap

/-!
# Maps of vectors with a secondary index

A hash map from keys to vectors, `HashMap<K, Vec<V>>`, where a program
pushes to a key's vector, takes elements out of it and removes the key
once its vector is empty. Beside it the program keeps an index
`I → Option K`: every value carries an index key (`key v`), and the index
says under which map key the value with that index key is stored.

`Indexes key m idx` is the invariant that keeps the two in step: the index
sends `i` to `k` exactly when the vector of `k` holds a value with index
key `i`, no vector is empty and no vector holds two values with the same
index key. One lemma per operation says what the index must do alongside
for the invariant to survive it.
-/

namespace VecMap

open ListMap

variable {K I V : Type} [DecidableEq K]

/-- The vector stored under `k`, empty when the key is absent. -/
def members (m : List (K × List V)) (k : K) : List V := (lookup m k).getD []

/-- `entry(k).or_default().push(v)`. -/
def push (m : List (K × List V)) (k : K) (v : V) : List (K × List V) :=
  insert m k (members m k ++ [v])

/-- Write back the vector of `k` once an element has left it, removing the
key if the vector is now empty (`if vec.is_empty() { entry.remove() }`). -/
def restore (m : List (K × List V)) (k : K) (vs : List V) : List (K × List V) :=
  if vs.isEmpty then erase m k else insert m k vs

/-- Change the first element satisfying `p` (`iter_mut().find(p)`, then an
update in place). -/
def modifyFirst (p : V → Bool) (f : V → V) : List V → List V
  | [] => []
  | v :: vs => if p v then f v :: vs else v :: modifyFirst p f vs

section Vectors

variable {p : V → Bool} {f : V → V} {v : V}

/-- The first element satisfying `p` and the vector without it are the
vector again, up to order. -/
theorem perm_cons_eraseP {vs : List V} (h : vs.find? p = some v) :
    vs.Perm (v :: vs.eraseP p) := by
  induction vs with
  | nil => cases h
  | cons w ws ih =>
    by_cases hw : p w = true
    · have hv : w = v := by simpa [List.find?_cons, hw] using h
      subst hv
      simp [hw]
    · have h' : ws.find? p = some v := by simpa [List.find?_cons, hw] using h
      rw [List.eraseP_cons_of_neg (by simpa using hw)]
      exact ((ih h').cons w).trans (.swap v w _)

theorem perm_modifyFirst {vs : List V} (h : vs.find? p = some v) :
    (modifyFirst p f vs).Perm (f v :: vs.eraseP p) := by
  induction vs with
  | nil => cases h
  | cons w ws ih =>
    by_cases hw : p w = true
    · have hv : w = v := by simpa [List.find?_cons, hw] using h
      subst hv
      simp [modifyFirst, hw]
    · have h' : ws.find? p = some v := by simpa [List.find?_cons, hw] using h
      rw [List.eraseP_cons_of_neg (by simpa using hw)]
      simp only [modifyFirst, hw, Bool.false_eq_true, if_false]
      exact ((ih h').cons w).trans (.swap (f v) w _)

end Vectors

section Members

variable (m : List (K × List V)) (k k' : K)

theorem members_push (v : V) :
    members (push m k v) k' = if k = k' then members m k ++ [v] else members m k' := by
  by_cases h : k = k'
  · subst h
    simp [members, push]
  · simp [members, push, lookup_insert, h]

theorem lookup_push (v : V) :
    lookup (push m k v) k' = if k = k' then some (members m k ++ [v]) else lookup m k' := by
  simp [push, lookup_insert]

theorem members_restore (vs : List V) :
    members (restore m k vs) k' = if k = k' then vs else members m k' := by
  by_cases hk : k = k' <;> by_cases hv : vs = [] <;>
    simp [members, restore, lookup_insert, lookup_erase, hk, hv]

theorem lookup_restore (vs : List V) :
    lookup (restore m k vs) k' =
      if k = k' then (if vs.isEmpty then none else some vs) else lookup m k' := by
  by_cases hk : k = k' <;> by_cases hv : vs.isEmpty <;>
    simp [restore, lookup_insert, lookup_erase, hk, hv]

theorem members_erase : members (erase m k) k' = if k = k' then [] else members m k' := by
  by_cases hk : k = k' <;> simp [members, lookup_erase, hk]

theorem members_insert (vs : List V) :
    members (insert m k vs) k' = if k = k' then vs else members m k' := by
  by_cases hk : k = k' <;> simp [members, lookup_insert, hk]

/-- A key with a non-empty vector is present with that vector. -/
theorem lookup_eq_some_members {m : List (K × List V)} {k : K} (h : members m k ≠ []) :
    lookup m k = some (members m k) := by
  cases hk : lookup m k with
  | none => simp [members, hk] at h
  | some vs => simp [members, hk]

end Members

omit [DecidableEq K] in
/-- Clearing the index keys of a vector, one after another. -/
theorem foldl_update_none_apply [DecidableEq I] (key : V → I) (vs : List V) (idx : I → Option K)
    (i : I) :
    (vs.foldl (fun idx v => Function.update idx (key v) none) idx) i =
      if i ∈ vs.map key then none else idx i := by
  induction vs generalizing idx with
  | nil => simp
  | cons v vs ih =>
    rw [List.foldl_cons, ih]
    by_cases hi : i = key v
    · simp [hi]
    · simp [hi]

variable (key : V → I)

/-- The index `idx` locates every value of `m` by its index key. -/
structure Indexes (m : List (K × List V)) (idx : I → Option K) : Prop where
  idx_iff : ∀ i k, idx i = some k ↔ i ∈ (members m k).map key
  nonempty : ∀ k, lookup m k ≠ some []
  nodup : ∀ k, ((members m k).map key).Nodup

namespace Indexes

variable {key} {m : List (K × List V)} {idx : I → Option K}

theorem nil : Indexes key ([] : List (K × List V)) (fun _ => none) where
  idx_iff i k := by simp [members]
  nonempty k := by simp
  nodup k := by simp [members]

/-- An index key is stored under one map key at most. -/
theorem unique (h : Indexes key m idx) {i : I} {k k' : K} (hk : i ∈ (members m k).map key)
    (hk' : i ∈ (members m k').map key) : k = k' := by
  have e := ((h.idx_iff i k).2 hk).symm.trans ((h.idx_iff i k').2 hk')
  exact Option.some.inj e

theorem not_mem_of_none (h : Indexes key m idx) {i : I} (hi : idx i = none) (k : K) :
    i ∉ (members m k).map key := by
  intro hk
  rw [(h.idx_iff i k).2 hk] at hi
  cases hi

variable [DecidableEq I]

/-- In a vector without repeated index keys, the first value with a value's
index key is that value. -/
theorem find?_key (h : Indexes key m idx) {k : K} {v : V} (hv : v ∈ members m k) :
    (members m k).find? (fun w => key w = key v) = some v := by
  obtain ⟨w, hw⟩ : ∃ w, (members m k).find? (fun w => key w = key v) = some w :=
    Option.isSome_iff_exists.1 (List.find?_isSome.2 ⟨v, hv, by simp⟩)
  have hwkey : key w = key v := by simpa using List.find?_some hw
  rw [hw, List.inj_on_of_nodup_map (h.nodup k) (List.mem_of_find?_eq_some hw) hv hwkey]

/-- What the index holds is found in the vector it names. -/
theorem exists_find? (h : Indexes key m idx) {i : I} {k : K} (hi : idx i = some k) :
    ∃ v ∈ members m k, key v = i ∧ (members m k).find? (fun w => key w = i) = some v := by
  obtain ⟨v, hv, rfl⟩ := List.mem_map.1 ((h.idx_iff i k).1 hi)
  exact ⟨v, hv, rfl, h.find?_key hv⟩

/-- A value whose index key is new may be pushed to any vector. -/
theorem push (h : Indexes key m idx) (k : K) {v : V} (hv : idx (key v) = none) :
    Indexes key (VecMap.push m k v) (Function.update idx (key v) (some k)) where
  idx_iff i k' := by
    rw [members_push]
    by_cases hi : i = key v
    · subst hi
      by_cases hk : k = k'
      · simp [hk]
      · simp [hk, h.not_mem_of_none hv k']
    · by_cases hk : k = k'
      · subst hk
        simp [hi, h.idx_iff i k]
      · simp [hi, hk, h.idx_iff i k']
  nonempty k' := by
    rw [lookup_push]
    by_cases hk : k = k' <;> simp [hk, h.nonempty k']
  nodup k' := by
    rw [members_push]
    by_cases hk : k = k'
    · subst hk
      simp only [if_true, List.map_append, List.map_cons, List.map_nil]
      rw [List.nodup_append_comm, List.singleton_append, List.nodup_cons]
      exact ⟨h.not_mem_of_none hv k, h.nodup k⟩
    · simpa [hk] using h.nodup k'

/-- Taking out the first value of `k`'s vector that satisfies `p` clears
its index key. -/
theorem restore_eraseP (h : Indexes key m idx) {k : K} {p : V → Bool} {v : V}
    (hv : (members m k).find? p = some v) :
    Indexes key (restore m k ((members m k).eraseP p)) (Function.update idx (key v) none) := by
  have hperm := perm_cons_eraseP hv
  have hnodup : (key v :: ((members m k).eraseP p).map key).Nodup := by
    simpa using (hperm.map key).nodup_iff.1 (h.nodup k)
  have hmem : key v ∈ (members m k).map key :=
    List.mem_map_of_mem (List.mem_of_find?_eq_some hv)
  refine ⟨fun i k' => ?_, fun k' => ?_, fun k' => ?_⟩
  · rw [members_restore]
    by_cases hi : i = key v
    · subst hi
      have hk' : k ≠ k' → key v ∉ (members m k').map key := fun hk hm => hk (h.unique hmem hm)
      by_cases hk : k = k'
      · simpa [hk] using (List.nodup_cons.1 hnodup).1
      · simp [hk, hk' hk]
    · by_cases hk : k = k'
      · subst hk
        have e : i ∈ (members m k).map key ↔ i ∈ ((members m k).eraseP p).map key := by
          simpa [hi] using (hperm.map key).mem_iff (a := i)
        simp [hi, h.idx_iff i k, e]
      · simp [hi, hk, h.idx_iff i k']
  · rw [lookup_restore]
    by_cases hk : k = k'
    · by_cases he : ((members m k).eraseP p).isEmpty <;> simp_all
    · simpa [hk] using h.nonempty k'
  · rw [members_restore]
    by_cases hk : k = k'
    · simpa [hk] using (List.nodup_cons.1 hnodup).2
    · simpa [hk] using h.nodup k'

/-- Removing a key clears the index keys of its vector. -/
theorem erase (h : Indexes key m idx) (k : K) :
    Indexes key (ListMap.erase m k)
      ((members m k).foldl (fun idx v => Function.update idx (key v) none) idx) where
  idx_iff i k' := by
    rw [members_erase, foldl_update_none_apply]
    by_cases hi : i ∈ (members m k).map key
    · have hk' : k ≠ k' → i ∉ (members m k').map key := fun hk hm => hk (h.unique hi hm)
      by_cases hk : k = k'
      · subst hk
        simp [hi]
      · simp [hi, hk, hk' hk]
    · by_cases hk : k = k'
      · subst hk
        simp [hi, h.idx_iff i k]
      · simp [hi, hk, h.idx_iff i k']
  nonempty k' := by
    rw [lookup_erase]
    by_cases hk : k = k' <;> simp [hk, h.nonempty k']
  nodup k' := by
    rw [members_erase]
    by_cases hk : k = k' <;> simp [hk, h.nodup k']

/-- Changing the first value of `k`'s vector that satisfies `p` to one
with a new index key moves its entry in the index. -/
theorem insert_modifyFirst (h : Indexes key m idx) {k : K} {p : V → Bool} {f : V → V} {v : V}
    (hv : (members m k).find? p = some v) (hfresh : idx (key (f v)) = none) :
    Indexes key (ListMap.insert m k (modifyFirst p f (members m k)))
      (Function.update (Function.update idx (key v) none) (key (f v)) (some k)) := by
  have hperm := perm_cons_eraseP hv
  have hperm' := perm_modifyFirst (f := f) hv
  have hmem : key v ∈ (members m k).map key :=
    List.mem_map_of_mem (List.mem_of_find?_eq_some hv)
  have hnodup : (key v :: ((members m k).eraseP p).map key).Nodup := by
    simpa using (hperm.map key).nodup_iff.1 (h.nodup k)
  -- the new index key is fresh, so it differs from the old one and from
  -- every index key left in the vector
  have hne : key (f v) ≠ key v := by
    intro e
    exact h.not_mem_of_none hfresh k (e ▸ hmem)
  have hfresh' : key (f v) ∉ ((members m k).eraseP p).map key := fun hm =>
    h.not_mem_of_none hfresh k
      ((hperm.map key).mem_iff.2 (List.mem_cons_of_mem _ hm))
  refine ⟨fun i k' => ?_, fun k' => ?_, fun k' => ?_⟩
  · rw [members_insert]
    have e : i ∈ (modifyFirst p f (members m k)).map key ↔
        i = key (f v) ∨ i ∈ ((members m k).eraseP p).map key := by
      simpa using (hperm'.map key).mem_iff (a := i)
    have e' : i ∈ (members m k).map key ↔ i = key v ∨ i ∈ ((members m k).eraseP p).map key := by
      simpa using (hperm.map key).mem_iff (a := i)
    by_cases hi : i = key (f v)
    · subst hi
      by_cases hk : k = k'
      · subst hk
        simp [e]
      · simp [hk, h.not_mem_of_none hfresh k']
    · by_cases hi' : i = key v
      · subst hi'
        have hk' : k ≠ k' → key v ∉ (members m k').map key := fun hk hm => hk (h.unique hmem hm)
        by_cases hk : k = k'
        · subst hk
          simp [hi, e, (List.nodup_cons.1 hnodup).1]
        · simp [hi, hk, hk' hk]
      · by_cases hk : k = k'
        · subst hk
          simp [hi, hi', e, e', h.idx_iff i k]
        · simp [hi, hi', hk, h.idx_iff i k']
  · rw [lookup_insert]
    by_cases hk : k = k'
    · subst hk
      have : modifyFirst p f (members m k) ≠ [] := fun he => by simpa [he] using hperm'.length_eq
      simp [this]
    · simpa [hk] using h.nonempty k'
  · rw [members_insert]
    by_cases hk : k = k'
    · subst hk
      simp only [if_true]
      rw [(hperm'.map key).nodup_iff, List.map_cons, List.nodup_cons]
      exact ⟨hfresh', (List.nodup_cons.1 hnodup).2⟩
    · simpa [hk] using h.nodup k'

end Indexes

end VecMap
