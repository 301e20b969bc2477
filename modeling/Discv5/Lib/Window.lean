import Mathlib

/-!
# Instants in sliding windows

Instants are natural numbers. The window of `width` ending at `a` is the
half-open interval `(a - width, a]`, written without a subtraction as
`t ≤ a ∧ a < t + width`. `Bounded l width k` says that every such window
holds at most `k` of the instants `l`: what a sliding-window rate limiter
promises about the instants it lets in.

The lemmas say when one more instant keeps a list bounded (it is the
latest, and its own window held fewer than `k`), and that a list bounded
per window of `width` holds at most `n * k` instants in a window `n` widths
wide.
-/

namespace Window

/-- The instants of `l` in the window of `width` ending at `a`. -/
def countIn (l : List Nat) (width a : Nat) : Nat :=
  l.countP fun t => t ≤ a ∧ a < t + width

/-- Every window of `width` holds at most `k` instants of `l`. -/
def Bounded (l : List Nat) (width k : Nat) : Prop :=
  ∀ a, countIn l width a ≤ k

@[simp] theorem countIn_nil (width a : Nat) : countIn [] width a = 0 := rfl

theorem countIn_append (l l' : List Nat) (width a : Nat) :
    countIn (l ++ l') width a = countIn l width a + countIn l' width a :=
  List.countP_append

theorem countIn_singleton (t width a : Nat) :
    countIn [t] width a = if t ≤ a ∧ a < t + width then 1 else 0 := by
  by_cases h : t ≤ a ∧ a < t + width <;> simp [countIn, h]

theorem Bounded.nil (width k : Nat) : Bounded [] width k := fun _ => Nat.zero_le _

/-- A window ending no earlier than the latest instant of `l`, and not past
the end of that instant's window, holds no instant of `l` that the latter
window misses. -/
theorem countIn_le_of_latest {l : List Nat} {width now a : Nat} (hle : ∀ t ∈ l, t ≤ now)
    (hnow : now ≤ a) : countIn l width a ≤ countIn l width now := by
  refine List.countP_mono_left fun t ht hin => ?_
  simp only [decide_eq_true_eq] at hin ⊢
  have := hle t ht
  omega

/-- An instant no earlier than every instant of `l`, let in while its own
window holds fewer than `k`, keeps `l` bounded. -/
theorem Bounded.snoc {l : List Nat} {width k now : Nat} (h : Bounded l width k) (hle : ∀ t ∈ l, t ≤ now)
    (hlt : countIn l width now < k) : Bounded (l ++ [now]) width k := by
  intro a
  rw [countIn_append, countIn_singleton]
  split_ifs with hin
  · -- `now` is in the window, which then holds only instants of `now`'s own window
    have hwin : countIn l width a ≤ countIn l width now := countIn_le_of_latest hle hin.1
    omega
  · simpa using h a

/-- No instant lies in a window of width zero. -/
@[simp] theorem countIn_zero (l : List Nat) (a : Nat) : countIn l 0 a = 0 :=
  List.countP_eq_zero.2 fun t _ => by simp only [Nat.add_zero, decide_eq_true_eq]; omega

/-- A window `m + width` wide is one `width` wide and the `m` wide one
ending `width` earlier. -/
theorem countIn_add_le (l : List Nat) (m width a : Nat) :
    countIn l (m + width) a ≤ countIn l width a + countIn l m (a - width) := by
  unfold countIn
  rw [List.countP_eq_countP_filter_add l _ fun t => decide (a < t + width)]
  refine Nat.add_le_add ?_ ?_
  · -- the instants in the last `width`
    rw [List.countP_filter]
    refine List.countP_mono_left fun t _ hin => ?_
    simp only [Bool.and_eq_true, decide_eq_true_eq] at hin ⊢
    omega
  · -- the earlier ones
    rw [List.countP_filter]
    refine List.countP_mono_left fun t _ hin => ?_
    simp only [Bool.and_eq_true, decide_eq_true_eq, Bool.not_eq_true', decide_eq_false_iff_not,
      Nat.not_lt] at hin ⊢
    omega

/-- A window `n` widths wide holds at most `n * k` instants of a bounded list. -/
theorem Bounded.countIn_mul_le {l : List Nat} {width k : Nat} (h : Bounded l width k) :
    ∀ (n a : Nat), countIn l (n * width) a ≤ n * k
  | 0, a => by simp
  | n + 1, a => by
    have hsplit := countIn_add_le l (n * width) width a
    have hlast := h a
    have hrest := h.countIn_mul_le n (a - width)
    rw [Nat.succ_mul, Nat.succ_mul]
    omega

end Window
