import Mathlib

/-!
# Chunkings of a list under a weight bound

A greedy packing loop cuts a list of weighted items into chunks: each item
either extends the last chunk, when the chunk stays below the bound, or
opens a new chunk. What such a loop is for is a *chunking*: chunks that
are non-empty, each lighter than the bound, whose concatenation is the
list. `Chunking.extend` and `Chunking.push` are the two moves of the loop,
and `Chunking.length_le` the count of chunks a chunking can have.
-/

namespace Chunking

variable {α : Type} (w : α → Nat)

/-- The weight of a chunk: the sum of its items' weights. -/
def weight (chunk : List α) : Nat := (chunk.map w).sum

@[simp] theorem weight_nil : weight w [] = 0 := rfl

@[simp] theorem weight_append (xs ys : List α) : weight w (xs ++ ys) = weight w xs + weight w ys := by
  simp [weight, List.sum_append]

@[simp] theorem weight_singleton (x : α) : weight w [x] = w x := by
  simp [weight]

/-- Modifying the last element of a list ending in `cur`. -/
theorem modify_append_length (done : List α) (cur : α) (f : α → α) :
    (done ++ [cur]).modify done.length f = done ++ [f cur] := by
  induction done with
  | nil => rfl
  | cons x xs ih => simpa using ih

end Chunking

/-- `chunks` cut `xs` into non-empty chunks of weight below `bound`. -/
structure Chunking {α : Type} (w : α → Nat) (bound : Nat) (xs : List α) (chunks : List (List α)) :
    Prop where
  flatten_eq : chunks.flatten = xs
  ne_nil : ∀ chunk ∈ chunks, chunk ≠ []
  weight_lt : ∀ chunk ∈ chunks, Chunking.weight w chunk < bound

namespace Chunking

variable {α : Type} {w : α → Nat} {bound : Nat} {xs : List α} {chunks : List (List α)} {x : α}

/-- One item light enough is a chunking of itself. -/
theorem singleton (hx : w x < bound) : Chunking w bound [x] [[x]] where
  flatten_eq := by simp
  ne_nil := by simp
  weight_lt := by simpa using hx

/-- Opening a new chunk for an item lighter than the bound. -/
theorem push (h : Chunking w bound xs chunks) (hx : w x < bound) :
    Chunking w bound (xs ++ [x]) (chunks ++ [[x]]) where
  flatten_eq := by simp [h.flatten_eq]
  ne_nil := by
    intro chunk hc
    rcases List.mem_append.mp hc with hc | hc
    · exact h.ne_nil chunk hc
    · simp at hc
      simp [hc]
  weight_lt := by
    intro chunk hc
    rcases List.mem_append.mp hc with hc | hc
    · exact h.weight_lt chunk hc
    · simp at hc
      simpa [hc] using hx

/-- Extending the last chunk by an item that keeps it below the bound. -/
theorem extend {chunk : List α} (h : Chunking w bound xs (chunks ++ [chunk]))
    (hx : weight w chunk + w x < bound) :
    Chunking w bound (xs ++ [x]) (chunks ++ [chunk ++ [x]]) where
  flatten_eq := by
    have := h.flatten_eq
    simp only [List.flatten_append, List.flatten_singleton] at this ⊢
    rw [← List.append_assoc, this]
  ne_nil := by
    intro c hc
    rcases List.mem_append.mp hc with hc | hc
    · exact h.ne_nil c (List.mem_append_left _ hc)
    · simp at hc
      simp [hc]
  weight_lt := by
    intro c hc
    rcases List.mem_append.mp hc with hc | hc
    · exact h.weight_lt c (List.mem_append_left _ hc)
    · simp at hc
      simpa [hc] using hx

/-- Every chunk holds an item, so there are at most as many chunks as items. -/
theorem length_le (h : Chunking w bound xs chunks) : chunks.length ≤ xs.length := by
  have hone : ∀ n ∈ chunks.map List.length, 1 ≤ n := by
    intro n hn
    obtain ⟨chunk, hc, rfl⟩ := List.mem_map.mp hn
    exact List.length_pos_iff.mpr (h.ne_nil chunk hc)
  calc chunks.length = (chunks.map List.length).length := (List.length_map _).symm
    _ ≤ (chunks.map List.length).sum := List.length_le_sum_of_one_le _ hone
    _ = xs.length := by rw [← List.length_flatten, h.flatten_eq]

/-- An item of a chunk is an item of the list. -/
theorem mem_of_mem (h : Chunking w bound xs chunks) {chunk : List α} (hc : chunk ∈ chunks) {y : α}
    (hy : y ∈ chunk) : y ∈ xs :=
  h.flatten_eq ▸ List.mem_flatten.mpr ⟨chunk, hc, hy⟩

end Chunking
