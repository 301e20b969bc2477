import Mathlib

/-!
# Boundary — a two-part list with a cached boundary index

A list whose elements failing a test `p` all come before those passing
it, together with a cached index of the first element passing `p`
(`none` when there is none). `Boundary p l b` says that `b` is that index
for `l`. Each lemma below is one way of editing such a list (append at
the end, insert at the boundary, remove an element, drop the head,
overwrite an element with one of the same kind) together with the new
boundary that keeps the cache exact.
-/

namespace List

variable {α : Type} {p : α → Bool}

/-- `l` is a prefix of elements failing `p` followed by elements passing it,
and `b` is the index where the second part starts (`none` if it is empty). -/
def Boundary (p : α → Bool) (l : List α) (b : Option Nat) : Prop :=
  ∃ ds cs, l = ds ++ cs ∧ (∀ x ∈ ds, p x = false) ∧ (∀ x ∈ cs, p x = true) ∧
    b = if cs = [] then none else some ds.length

theorem insertIdx_append_length (ds cs : List α) (x : α) :
    (ds ++ cs).insertIdx ds.length x = ds ++ x :: cs := by
  induction ds with
  | nil => simp [insertIdx_zero]
  | cons d ds ih => simp [insertIdx_succ_cons, ih]

namespace Boundary

theorem nil : Boundary p [] none :=
  ⟨[], [], rfl, by simp, by simp, by simp⟩

/-- The cache is the index of the first element passing `p`. -/
theorem eq_findIdx? {l : List α} {b : Option Nat} (h : Boundary p l b) : b = l.findIdx? p := by
  obtain ⟨ds, cs, rfl, hds, hcs, rfl⟩ := h
  rw [findIdx?_append]
  have hnone : ds.findIdx? p = none := findIdx?_eq_none_iff.mpr (by simpa using hds)
  cases cs with
  | nil => simp [hnone]
  | cons c cs =>
    have hc : p c = true := hcs c (by simp)
    simp [hnone, findIdx?_cons, hc]

/-- A boundary index points inside the list. -/
theorem lt_length {l : List α} {f : Nat} (h : Boundary p l (some f)) : f < l.length := by
  obtain ⟨ds, cs, rfl, -, -, hb⟩ := h
  have hne : cs ≠ [] := by
    rintro rfl
    simp at hb
  have hf : f = ds.length := by simpa [hne] using hb
  have hcs : 0 < cs.length := length_pos_iff.mpr hne
  simp only [length_append]
  omega

/-- An element passes `p` exactly when it sits at or after the boundary. -/
theorem getElem_iff {l : List α} {b : Option Nat} (h : Boundary p l b) (i : Nat)
    (hi : i < l.length) : p l[i] = true ↔ ∃ f, b = some f ∧ f ≤ i := by
  obtain ⟨ds, cs, rfl, hds, hcs, rfl⟩ := h
  by_cases hlt : i < ds.length
  · rw [getElem_append_left hlt, hds _ (getElem_mem hlt)]
    cases cs with
    | nil => simp
    | cons c cs => simp; omega
  · rw [getElem_append_right (by omega)]
    have hi' : i - ds.length < cs.length := by simp at hi; omega
    have hmem := getElem_mem hi'
    rw [hcs _ hmem]
    have hne : cs ≠ [] := ne_nil_of_mem hmem
    simp [hne]
    omega

/-- The number of elements passing `p` is read off the cache. -/
theorem countP_eq {l : List α} {b : Option Nat} (h : Boundary p l b) :
    l.countP p = b.elim 0 (l.length - ·) := by
  obtain ⟨ds, cs, rfl, hds, hcs, rfl⟩ := h
  have h1 : ds.countP p = 0 := countP_eq_zero.mpr fun x hx => by simp [hds x hx]
  have h2 : cs.countP p = cs.length := countP_eq_length.mpr hcs
  cases cs with
  | nil => simp [h1]
  | cons c cs =>
    simp only [countP_append, h1, h2, reduceCtorEq, if_false, Option.elim_some, length_append]
    omega

/-- Appending an element that passes `p`. -/
theorem append_true {l : List α} {b : Option Nat} (h : Boundary p l b) {x : α} (hx : p x = true) :
    Boundary p (l ++ [x]) (b.or (some l.length)) := by
  obtain ⟨ds, cs, rfl, hds, hcs, rfl⟩ := h
  refine ⟨ds, cs ++ [x], by simp, hds, ?_, ?_⟩
  · intro y hy
    rcases mem_append.mp hy with hy | hy
    · exact hcs y hy
    · rw [mem_singleton.mp hy]; exact hx
  · cases cs with
    | nil => simp
    | cons c cs => simp

/-- Appending an element that fails `p` to a list with no element passing `p`. -/
theorem append_false_of_none {l : List α} (h : Boundary p l none) {x : α} (hx : p x = false) :
    Boundary p (l ++ [x]) none := by
  obtain ⟨ds, cs, rfl, hds, hcs, hb⟩ := h
  have hcs0 : cs = [] := by
    by_contra hne
    simp [hne] at hb
  subst hcs0
  refine ⟨ds ++ [x], [], by simp, ?_, by simp, by simp⟩
  intro y hy
  rcases mem_append.mp hy with hy | hy
  · exact hds y hy
  · rw [mem_singleton.mp hy]; exact hx

/-- Inserting an element that fails `p` at the boundary moves the boundary up by one. -/
theorem insertIdx_false {l : List α} {f : Nat} (h : Boundary p l (some f)) {x : α}
    (hx : p x = false) : Boundary p (l.insertIdx f x) (some (f + 1)) := by
  obtain ⟨ds, cs, rfl, hds, hcs, hb⟩ := h
  have hne : cs ≠ [] := by
    intro hc
    simp [hc] at hb
  have hf : f = ds.length := by simpa [hne] using hb
  subst hf
  refine ⟨ds ++ [x], cs, by simp [insertIdx_append_length], ?_, hcs, by simp [hne]⟩
  intro y hy
  rcases mem_append.mp hy with hy | hy
  · exact hds y hy
  · rw [mem_singleton.mp hy]; exact hx

/-- Removing the element at `pos`, with the boundary update of
`update_first_connected_pos_for_removal`. -/
theorem eraseIdx {l : List α} {b : Option Nat} (h : Boundary p l b) {pos : Nat}
    (hpos : pos < l.length) :
    Boundary p (l.eraseIdx pos) (b.bind fun f =>
      if pos < f then some (f - 1) else if f < (l.eraseIdx pos).length then some f else none) := by
  obtain ⟨ds, cs, rfl, hds, hcs, rfl⟩ := h
  by_cases hlt : pos < ds.length
  · -- the removed element is in the failing prefix
    rw [eraseIdx_append_of_lt_length hlt]
    refine ⟨ds.eraseIdx pos, cs, rfl, fun y hy => hds y ((eraseIdx_sublist _ _).subset hy), hcs, ?_⟩
    cases cs with
    | nil => simp
    | cons c cs => simp [length_eraseIdx, hlt]
  · -- the removed element is in the passing suffix
    have hge : ds.length ≤ pos := by omega
    rw [eraseIdx_append_of_length_le hge]
    refine ⟨ds, cs.eraseIdx (pos - ds.length), rfl, hds,
      fun y hy => hcs y ((eraseIdx_sublist _ _).subset hy), ?_⟩
    have hpc : pos - ds.length < cs.length := by simp at hpos; omega
    cases cs with
    | nil => simp at hpc
    | cons c cs =>
      have hlen : ((c :: cs).eraseIdx (pos - ds.length)).length = cs.length := by
        rw [length_eraseIdx_of_lt hpc]; simp
      by_cases hcs0 : cs = []
      · subst hcs0
        have : (c :: []).eraseIdx (pos - ds.length) = [] := by
          simp at hpc; simp [hpc]
        simp [this, hlt]
      · have hne : (c :: cs).eraseIdx (pos - ds.length) ≠ [] := by
          intro he; rw [he] at hlen; simp at hlen; exact hcs0 (length_eq_zero_iff.mp hlen.symm)
        have hcl : 0 < cs.length := length_pos_iff.mpr hcs0
        simp [hne, hlt, hlen, hcl]

/-- Dropping a head that fails `p` moves the boundary down by one. -/
theorem tail_of_false {x : α} {l : List α} {b : Option Nat} (h : Boundary p (x :: l) b)
    (hx : p x = false) : Boundary p l (b.map (· - 1)) := by
  obtain ⟨ds, cs, hl, hds, hcs, rfl⟩ := h
  cases ds with
  | nil =>
    simp at hl
    subst hl
    simp [hcs x (by simp)] at hx
  | cons d ds =>
    simp at hl
    obtain ⟨rfl, rfl⟩ := hl
    refine ⟨ds, cs, rfl, fun y hy => hds y (by simp [hy]), hcs, ?_⟩
    cases cs with
    | nil => simp
    | cons c cs => simp

/-- Overwriting an element with one of the same kind keeps the boundary. -/
theorem set {l : List α} {b : Option Nat} (h : Boundary p l b) {i : Nat} (hi : i < l.length)
    {x : α} (hx : p x = p l[i]) : Boundary p (l.set i x) b := by
  obtain ⟨ds, cs, rfl, hds, hcs, rfl⟩ := h
  by_cases hlt : i < ds.length
  · refine ⟨ds.set i x, cs, by simp [set_append_left _ _ hlt], ?_, hcs, by simp⟩
    intro y hy
    rcases mem_or_eq_of_mem_set hy with hy | rfl
    · exact hds y hy
    · rw [hx, getElem_append_left hlt]; exact hds _ (getElem_mem hlt)
  · have hge : ds.length ≤ i := by omega
    refine ⟨ds, cs.set (i - ds.length) x, by simp [set_append_right _ _ hge], hds, ?_, ?_⟩
    · intro y hy
      rcases mem_or_eq_of_mem_set hy with hy | rfl
      · exact hcs y hy
      · rw [hx, getElem_append_right hge]; exact hcs _ (getElem_mem _)
    · simp

end Boundary

end List
