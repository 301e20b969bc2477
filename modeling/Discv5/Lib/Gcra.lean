import Mathlib

/-!
# The generic cell rate algorithm

GCRA in its virtual-scheduling form. A meter keeps a theoretical arrival
time (TAT) per flow. A request of `w` tokens at `now` conforms when
`max now tat + t * w ≤ now + tau`, where `t` is the emission interval of
one token and `tau` the tolerance, and a conforming request moves the TAT
to `max now tat + t * w`.

What a meter let through is a list of instants with their weights.
`Budget` says that the TAT lies beyond each instant by the tokens let
through from it on; it holds of nothing let through, survives a later TAT,
and is kept by every request let through (`Budget.accept`). Through it a
conforming request keeps `Rate`: no interval `[a, b]` lets through more
than `(b - a + tau) / t` tokens (`Rate.accept`).
-/

namespace Gcra

/-- Whether a request of `w` tokens at `now` conforms to a TAT `tat`. -/
def Conforms (t tau tat now w : Nat) : Prop := max now tat + t * w ≤ now + tau

instance (t tau tat now w : Nat) : Decidable (Conforms t tau tat now w) :=
  inferInstanceAs (Decidable (_ ≤ _))

/-- The TAT after a request of `w` tokens at `now` is let through. -/
def next (t tat now w : Nat) : Nat := max now tat + t * w

/-- The tokens let through at instants from `a` on. -/
def tokensFrom (l : List (Nat × Nat)) (a : Nat) : Nat :=
  ((l.filter fun e => a ≤ e.1).map Prod.snd).sum

/-- The tokens let through at instants in `[a, b]`. -/
def tokensIn (l : List (Nat × Nat)) (a b : Nat) : Nat :=
  ((l.filter fun e => a ≤ e.1 ∧ e.1 ≤ b).map Prod.snd).sum

/-- The TAT lies beyond every instant by the tokens let through from it on. -/
def Budget (t tat : Nat) (l : List (Nat × Nat)) : Prop :=
  ∀ a, a + t * tokensFrom l a ≤ max a tat

/-- No interval `[a, b]` lets through more tokens than its length and the
tolerance replenish. -/
def Rate (t tau : Nat) (l : List (Nat × Nat)) : Prop :=
  ∀ a b, t * tokensIn l a b ≤ b - a + tau

@[simp] theorem tokensFrom_nil (a : Nat) : tokensFrom [] a = 0 := rfl

@[simp] theorem tokensIn_nil (a b : Nat) : tokensIn [] a b = 0 := rfl

theorem tokensFrom_snoc (l : List (Nat × Nat)) (s w a : Nat) :
    tokensFrom (l ++ [(s, w)]) a = tokensFrom l a + if a ≤ s then w else 0 := by
  by_cases h : a ≤ s <;> simp [tokensFrom, List.filter_append, h]

theorem tokensIn_snoc (l : List (Nat × Nat)) (s w a b : Nat) :
    tokensIn (l ++ [(s, w)]) a b = tokensIn l a b + if a ≤ s ∧ s ≤ b then w else 0 := by
  by_cases h : a ≤ s ∧ s ≤ b <;> simp [tokensIn, List.filter_append, h]

theorem tokensIn_append (l l' : List (Nat × Nat)) (a b : Nat) :
    tokensIn (l ++ l') a b = tokensIn l a b + tokensIn l' a b := by
  simp [tokensIn, List.filter_append]

theorem tokensIn_le_tokensFrom (l : List (Nat × Nat)) (a b : Nat) : tokensIn l a b ≤ tokensFrom l a := by
  unfold tokensIn tokensFrom
  refine List.Sublist.sum_le_sum ((List.monotone_filter_right _ fun e he => ?_).map _) (by simp)
  simp only [decide_eq_true_eq] at he ⊢
  exact he.1

variable {t tau tat tat' now w : Nat} {l : List (Nat × Nat)}

theorem Budget.nil (t tat : Nat) : Budget t tat [] := fun a => by simp

theorem Rate.nil (t tau : Nat) : Rate t tau [] := fun a b => by simp

theorem Budget.mono (h : Budget t tat l) (hle : tat ≤ tat') : Budget t tat' l := fun a =>
  (h a).trans (max_le_max le_rfl hle)

/-- A request let through at `now` keeps the budget, conforming or not. -/
theorem Budget.accept (h : Budget t tat l) : Budget t (next t tat now w) (l ++ [(now, w)]) := by
  intro a
  rw [tokensFrom_snoc]
  have ha := h a
  unfold next
  split_ifs with has
  · -- the new instant is counted: the TAT moved on by its tokens
    rw [Nat.mul_add]
    have : max a tat ≤ max now tat := max_le_max has le_rfl
    omega
  · rw [Nat.add_zero]
    have : max a tat ≤ max a (max now tat + t * w) := max_le_max le_rfl (by omega)
    omega

/-- A conforming request keeps the rate. -/
theorem Rate.accept (h : Rate t tau l) (hb : Budget t tat l) (hc : Conforms t tau tat now w) :
    Rate t tau (l ++ [(now, w)]) := by
  intro a b
  rw [tokensIn_snoc]
  split_ifs with hin
  · -- an interval holding `now`: what it let through before is within the budget from `a`
    have hfrom := hb a
    have hle : t * tokensIn l a b ≤ t * tokensFrom l a := Nat.mul_le_mul_left t (tokensIn_le_tokensFrom l a b)
    have hmax : max a tat ≤ max now tat := max_le_max hin.1 le_rfl
    unfold Conforms at hc
    rw [Nat.mul_add]
    omega
  · simpa using h a b

end Gcra
