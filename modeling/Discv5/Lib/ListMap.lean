import Mathlib

/-!
# Maps and multimaps as lists of pairs

A hash map is a list of key-value pairs read through `lookup`, the value
of the first entry of the key: `insert` drops every entry of the key
before it appends the new one, and `erase` drops them all, so the list
has one entry per key when it is built by these two.

Besides how `lookup` sees each operation, what a proof about such a map
usually needs is how many entries satisfy a predicate after each
operation; the lemmas here give that count as `List.countP`.
-/

namespace ListMap

variable {K V : Type}

section Keys

variable [DecidableEq K]

/-- The values stored under `k`, in the order they were added. -/
def get (l : List (K × V)) (k : K) : List V := (l.filter fun x => x.1 = k).map Prod.snd

/-- The value stored under `k`, for a map. -/
def lookup (l : List (K × V)) (k : K) : Option V := (get l k).head?

/-- Drop every entry of `k`. -/
def erase (l : List (K × V)) (k : K) : List (K × V) := l.filter fun x => x.1 ≠ k

/-- Map insertion: the entry of `k` is replaced. -/
def insert (l : List (K × V)) (k : K) (v : V) : List (K × V) := erase l k ++ [(k, v)]

@[simp] theorem lookup_nil (k : K) : lookup ([] : List (K × V)) k = none := rfl

theorem lookup_cons (e : K × V) (l : List (K × V)) (k : K) :
    lookup (e :: l) k = if e.1 = k then some e.2 else lookup l k := by
  by_cases h : e.1 = k <;> simp [lookup, get, h]

theorem mem_of_lookup_eq_some {k : K} {v : V} :
    ∀ {l : List (K × V)}, lookup l k = some v → (k, v) ∈ l
  | [], h => by simp at h
  | e :: l, h => by
    rw [lookup_cons] at h
    split_ifs at h with hk
    · cases h
      exact List.mem_cons.2 (.inl (by rw [← hk]))
    · exact List.mem_cons_of_mem _ (mem_of_lookup_eq_some h)

/-- With one entry per key, the value looked up is the one stored. -/
theorem lookup_eq_some_iff {k : K} {v : V} :
    ∀ {l : List (K × V)}, (l.map Prod.fst).Nodup → (lookup l k = some v ↔ (k, v) ∈ l)
  | [], _ => by simp
  | e :: l, h => by
    have hk : e.1 ∉ l.map Prod.fst := (List.nodup_cons.1 h).1
    rw [lookup_cons]
    split_ifs with he
    · -- the head holds the key, so no later entry does
      constructor
      · rintro ⟨⟩
        exact List.mem_cons.2 (.inl (by rw [← he]))
      · intro hmem
        rcases List.mem_cons.1 hmem with heq | hmem
        · rw [← heq]
        · exact absurd (he ▸ List.mem_map_of_mem (f := Prod.fst) hmem) hk
    · rw [lookup_eq_some_iff (List.nodup_cons.1 h).2, List.mem_cons]
      constructor
      · exact .inr
      · rintro (heq | hmem)
        · exact absurd (by rw [← heq]) he
        · exact hmem

theorem lookup_eq_none_iff {k : K} : ∀ {l : List (K × V)}, lookup l k = none ↔ ∀ v, (k, v) ∉ l
  | [] => by simp
  | e :: l => by
    rw [lookup_cons]
    split_ifs with he
    · simp only [false_iff, not_forall, not_not]
      exact ⟨e.2, List.mem_cons.2 (.inl (by rw [← he]))⟩
    · rw [lookup_eq_none_iff]
      simp only [List.mem_cons, not_or]
      exact ⟨fun h v => ⟨fun heq => he (by rw [← heq]), h v⟩, fun h v => (h v).2⟩

/-- Erasing a key removes exactly its entries from every count. -/
theorem countP_erase_add (p : K × V → Bool) (l : List (K × V)) (k : K) :
    (erase l k).countP p + l.countP (fun x => p x ∧ x.1 = k) = l.countP p := by
  induction l with
  | nil => rfl
  | cons y ys ih =>
    by_cases hk : y.1 = k <;> by_cases hp : p y = true <;>
      simp [erase, hk, hp] at ih ⊢ <;> omega

/-- A key that is present takes at least one entry with it. -/
theorem countP_erase_lt {p : K × V → Bool} {l : List (K × V)} {k : K} {v : V}
    (hv : lookup l k = some v) (hp : p (k, v) = true) :
    (erase l k).countP p < l.countP p := by
  have hmem : (k, v) ∈ l := mem_of_lookup_eq_some hv
  have hpos : 0 < l.countP fun x => p x ∧ x.1 = k :=
    List.countP_pos_iff.mpr ⟨(k, v), hmem, by simp [hp]⟩
  have := countP_erase_add p l k
  omega

/-- Replacing a present key's entry does not make the map longer. -/
theorem length_insert_le_of_lookup {l : List (K × V)} {k : K} {v : V} (h : lookup l k = some v) (v' : V) :
    (insert l k v').length ≤ l.length := by
  have hlt := countP_erase_lt (p := fun _ => true) h rfl
  simp only [List.countP_true] at hlt
  simp only [insert, List.length_append, List.length_singleton]
  omega

theorem countP_insert (p : K × V → Bool) (l : List (K × V)) (k : K) (v : V) :
    (insert l k v).countP p = (erase l k).countP p + if p (k, v) then 1 else 0 := by
  simp [insert, List.countP_append]

@[simp] theorem get_erase_self (l : List (K × V)) (k : K) : get (erase l k) k = [] := by
  simp [get, erase, List.filter_filter]

theorem get_erase_ne (l : List (K × V)) {k k' : K} (h : k ≠ k') :
    get (erase l k) k' = get l k' := by
  simp only [get, erase, List.filter_filter]
  congr 1
  apply List.filter_congr
  intro x _
  by_cases hx : x.1 = k' <;> simp [hx, Ne.symm h]

@[simp] theorem lookup_erase_self (l : List (K × V)) (k : K) : lookup (erase l k) k = none := by
  simp [lookup]

theorem lookup_erase_ne (l : List (K × V)) {k k' : K} (h : k ≠ k') :
    lookup (erase l k) k' = lookup l k' := by
  simp [lookup, get_erase_ne l h]

theorem get_insert (l : List (K × V)) (k k' : K) (v : V) :
    get (insert l k v) k' = get (erase l k) k' ++ if k = k' then [v] else [] := by
  by_cases h : k = k' <;> simp [insert, get, List.filter_append, h]

@[simp] theorem lookup_insert_self (l : List (K × V)) (k : K) (v : V) :
    lookup (insert l k v) k = some v := by
  simp [lookup, get_insert]

theorem lookup_insert_ne (l : List (K × V)) {k k' : K} (v : V) (h : k ≠ k') :
    lookup (insert l k v) k' = lookup l k' := by
  simp [lookup, get_insert, h, get_erase_ne l h]

theorem lookup_insert (l : List (K × V)) (k k' : K) (v : V) :
    lookup (insert l k v) k' = if k = k' then some v else lookup l k' := by
  by_cases h : k = k'
  · subst h
    simp
  · simp [h, lookup_insert_ne l v h]

theorem lookup_erase (l : List (K × V)) (k k' : K) :
    lookup (erase l k) k' = if k = k' then none else lookup l k' := by
  by_cases h : k = k'
  · subst h
    simp
  · simp [h, lookup_erase_ne l h]

theorem nodup_keys_erase {l : List (K × V)} (h : (l.map Prod.fst).Nodup) (k : K) :
    ((erase l k).map Prod.fst).Nodup :=
  h.sublist (List.filter_sublist.map _)

theorem nodup_keys_insert {l : List (K × V)} (h : (l.map Prod.fst).Nodup) (k : K) (v : V) :
    ((insert l k v).map Prod.fst).Nodup := by
  rw [insert, List.map_append, List.nodup_append]
  refine ⟨nodup_keys_erase h k, by simp, ?_⟩
  -- the erased list holds no entry of `k`
  intro a ha b hb
  simp only [List.map_cons, List.map_nil, List.mem_singleton] at hb
  subst hb
  obtain ⟨e, he, rfl⟩ := List.mem_map.1 ha
  exact (List.mem_filter.1 he).2 |> of_decide_eq_true

theorem mem_insert {l : List (K × V)} {k : K} {v : V} {e : K × V} :
    e ∈ insert l k v ↔ (e ∈ l ∧ e.1 ≠ k) ∨ e = (k, v) := by
  simp [insert, erase, List.mem_filter]

/-- With one entry per key, `erase` takes the key out of the keys. -/
theorem keys_erase {l : List (K × V)} (h : (l.map Prod.fst).Nodup) (k : K) :
    (erase l k).map Prod.fst = (l.map Prod.fst).erase k := by
  simp only [erase, h.erase_eq_filter, List.filter_map, Function.comp_def, ne_eq, decide_not]
  rfl

/-- Erasing an absent key changes nothing. -/
theorem erase_of_not_mem_keys {l : List (K × V)} {k : K} (h : k ∉ l.map Prod.fst) : erase l k = l := by
  refine List.filter_eq_self.2 fun e he => ?_
  have hne : e.1 ≠ k := fun heq => h (heq ▸ List.mem_map_of_mem he)
  simpa using hne

/-- Update in place: the entries of `k` go through `f`, and every entry
keeps its place. -/
def modify (l : List (K × V)) (k : K) (f : V → V) : List (K × V) :=
  l.map fun x => if x.1 = k then (x.1, f x.2) else x

@[simp] theorem keys_modify (l : List (K × V)) (k : K) (f : V → V) :
    (modify l k f).map Prod.fst = l.map Prod.fst := by
  induction l with
  | nil => rfl
  | cons x l ih =>
    by_cases hx : x.1 = k <;> simp_all [modify]

theorem mem_modify {l : List (K × V)} {k : K} {f : V → V} {e : K × V} (he : e ∈ modify l k f) :
    e ∈ l ∨ ∃ v, (k, v) ∈ l ∧ e = (k, f v) := by
  obtain ⟨x, hx, rfl⟩ := List.mem_map.1 he
  by_cases hk : x.1 = k
  · refine .inr ⟨x.2, ?_, by simp [hk]⟩
    rw [← hk]
    exact hx
  · left
    simpa [hk] using hx

end Keys

end ListMap
