import Mathlib

/-!
# Outcome — what a Rust function can do

A Rust function that returns `Result<α, ε>` either returns `Ok`, returns
`Err`, or panics (an out-of-range slice, a failed `expect`, an
`unreachable!`). `Outcome ε α` keeps the three apart, so that a theorem
can say that a function returns `Ok` and also that it never panics.

The checked slice `slice`, `advance` and the fixed-size conversion
`tryInto` are the partial operations the byte codecs use; each panics
exactly where Rust's `data[a..b]`, `Buf::advance` and
`<[u8; n]>::try_from(..).expect(..)` do.
-/

namespace Rust

universe u v w

/-- A Rust array `[T; n]`: a list of exactly `n` elements. -/
structure Arr (α : Type u) (n : Nat) where
  toList : List α
  length_toList : toList.length = n
  deriving DecidableEq

/-- The repeat expression `[a; n]`. -/
def Arr.replicate {α : Type u} (n : Nat) (a : α) : Arr α n := ⟨List.replicate n a, List.length_replicate⟩

/-- The result of running a Rust function that returns `Result<α, ε>`. -/
inductive Outcome (ε : Type u) (α : Type v) where
  | ok (a : α)
  | err (e : ε)
  | panic
  deriving DecidableEq, Repr

namespace Outcome

variable {ε : Type u} {α β γ : Type v}

/-- Sequencing: `?` on an `Err`, and a panic, end the computation. -/
def bind : Outcome ε α → (α → Outcome ε β) → Outcome ε β
  | .ok a, f => f a
  | .err e, _ => .err e
  | .panic, _ => .panic

instance : Monad (Outcome ε) where
  pure := .ok
  bind := bind

instance : MonadExceptOf ε (Outcome ε) where
  throw := .err
  tryCatch x h := match x with
    | .err e => h e
    | x => x

@[simp] theorem pure_eq (a : α) : (pure a : Outcome ε α) = .ok a := rfl

@[simp] theorem throw_eq (e : ε) : (throw e : Outcome ε α) = .err e := rfl

@[simp] theorem ok_bind (a : α) (f : α → Outcome ε β) : (Outcome.ok a >>= f) = f a := rfl

@[simp] theorem err_bind (e : ε) (f : α → Outcome ε β) :
    (Outcome.err e >>= f) = .err e := rfl

@[simp] theorem panic_bind (f : α → Outcome ε β) : (Outcome.panic >>= f) = .panic := rfl

@[simp] theorem map_ok (f : α → β) (a : α) : (f <$> Outcome.ok a : Outcome ε β) = .ok (f a) := rfl

theorem bind_eq_ok {x : Outcome ε α} {f : α → Outcome ε β} {b : β} :
    (x >>= f) = .ok b ↔ ∃ a, x = .ok a ∧ f a = .ok b := by
  cases x with
  | ok a => simp
  | err e => simp
  | panic => simp

theorem bind_ne_panic {x : Outcome ε α} {f : α → Outcome ε β} (hx : x ≠ .panic)
    (hf : ∀ a, x = .ok a → f a ≠ .panic) : (x >>= f) ≠ .panic := by
  cases x with
  | ok a => exact hf a rfl
  | err e => simp
  | panic => exact absurd rfl hx

/-- `Result::map_err` followed by `?`: an `Err` of the callee becomes an `Err` of the caller. -/
def ofExcept (f : ε' → ε) : Except ε' α → Outcome ε α
  | .ok a => .ok a
  | .error e => .err (f e)

@[simp] theorem ofExcept_ok (f : ε' → ε) (a : α) : ofExcept f (.ok a) = .ok a := rfl

@[simp] theorem ofExcept_error (f : ε' → ε) (e : ε') :
    (ofExcept f (.error e) : Outcome ε α) = .err (f e) := rfl

/-- A callee that returns a `Result` never panics the caller through `?`. -/
theorem ofExcept_ne_panic (f : ε' → ε) (x : Except ε' α) : ofExcept f x ≠ .panic := by
  cases x <;> simp

end Outcome

open Outcome

/-- `&data[a..b]`: panics unless `a ≤ b ≤ data.len()`. -/
def slice {ε : Type u} {α : Type v} (data : List α) (a b : Nat) : Outcome ε (List α) :=
  if a ≤ b ∧ b ≤ data.length then .ok ((data.drop a).take (b - a)) else .panic

/-- `<[T; n]>::try_from(data).expect(..)`: panics unless `data` has length `n`. -/
def tryInto {ε : Type u} {α : Type v} (n : Nat) (data : List α) : Outcome ε (Arr α n) :=
  if h : data.length = n then .ok ⟨data, h⟩ else .panic

variable {ε : Type u} {α : Type v}

theorem slice_of_le {data : List α} {a b : Nat} (hab : a ≤ b) (hb : b ≤ data.length) :
    (slice data a b : Outcome ε (List α)) = .ok ((data.drop a).take (b - a)) := by
  simp [slice, hab, hb]

/-- The front of a concatenation, sliced off at its length. -/
theorem slice_append_front {l₁ l₂ : List α} {b : Nat} (h : l₁.length = b) :
    (slice (l₁ ++ l₂) 0 b : Outcome ε (List α)) = .ok l₁ := by
  rw [slice_of_le (Nat.zero_le _) (by simp; omega)]
  simp [← h]

/-- The middle of a concatenation, sliced out between its offsets. -/
theorem slice_append_mid {l₁ l₂ l₃ : List α} {a b : Nat} (ha : l₁.length = a)
    (hb : a + l₂.length = b) : (slice (l₁ ++ l₂ ++ l₃) a b : Outcome ε (List α)) = .ok l₂ := by
  rw [slice_of_le (by omega) (by simp; omega)]
  subst ha hb
  simp [List.drop_left']

/-- The back of a concatenation, sliced from its offset to the end. -/
theorem slice_append_back {l₁ l₂ : List α} {a b : Nat} (ha : l₁.length = a)
    (hb : (l₁ ++ l₂).length = b) : (slice (l₁ ++ l₂) a b : Outcome ε (List α)) = .ok l₂ := by
  rw [slice_of_le (by simp at hb; omega) (by omega)]
  subst ha hb
  simp

theorem slice_ne_panic_iff {data : List α} {a b : Nat} :
    (slice data a b : Outcome ε (List α)) ≠ .panic ↔ a ≤ b ∧ b ≤ data.length := by
  unfold slice
  split <;> simp_all

/-- `Buf::advance(n)` on a slice: panics unless `n ≤ data.len()`. -/
def advance {ε : Type u} {α : Type v} (data : List α) (n : Nat) : Outcome ε (List α) :=
  if n ≤ data.length then .ok (data.drop n) else .panic

theorem advance_append {l₁ l₂ : List α} {n : Nat} (h : l₁.length = n) :
    (advance (l₁ ++ l₂) n : Outcome ε (List α)) = .ok l₂ := by
  subst h
  simp [advance]

/-- `data[i]`: panics unless `i < data.len()`. -/
def index {ε : Type u} {α : Type v} (data : List α) (i : Nat) : Outcome ε α :=
  match data[i]? with
  | some a => .ok a
  | none => .panic

theorem index_of_lt {data : List α} {i : Nat} (h : i < data.length) :
    (index data i : Outcome ε α) = .ok data[i] := by
  simp [index, List.getElem?_eq_getElem h]

theorem tryInto_of_length {data : List α} {n : Nat} (h : data.length = n) :
    (tryInto n data : Outcome ε (Arr α n)) = .ok ⟨data, h⟩ := by
  simp [tryInto, h]

@[simp] theorem tryInto_toList {n : Nat} (v : Arr α n) :
    (tryInto n v.toList : Outcome ε (Arr α n)) = .ok v := by
  obtain ⟨l, hl⟩ := v
  simp [tryInto, hl]

end Rust
