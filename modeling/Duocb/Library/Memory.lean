import Mathlib.Logic.Function.Basic
import Mathlib.Data.List.Basic

set_option relaxedAutoImplicit false
set_option autoImplicit false

/-!
# Stores to memory

A memory is a map from addresses to what stands there, and code that writes to it is a list of
stores. The rules below are for stores to one address after the other, as a copy makes them: they
are read back, and all memory before and behind them is as it was.

## Main definitions

* `Memory` — memory, and `Memory.run` — memory after some stores.
* `Memory.consecutive` — stores to one address after the other.
* `Memory.read` — what stands from an address on.

## Main results

* `Memory.read_run` — consecutive stores are read back.
* `Memory.run_of_disjoint` — they leave all other memory as it was.
-/

/-- Memory, cell by cell. -/
abbrev Memory (α : Type*) : Type _ := ℕ → α

namespace Memory

variable {α : Type*}

/-- Memory after some stores. Each comes with its address. -/
def run (m : Memory α) (stores : List (ℕ × α)) : Memory α :=
  stores.foldl (fun m store => Function.update m store.1 store.2) m

/-- What stands in memory from an address on. -/
def read (m : Memory α) (a : ℕ) : ℕ → List α
  | 0 => []
  | n + 1 => m a :: read m (a + 1) n

/-- Elements stored one by one, from an address on. -/
def consecutive (dst : ℕ) (xs : List α) : List (ℕ × α) := (xs.zipIdx dst).map Prod.swap

/-- The first element goes to the first address, and the others to the addresses behind it. -/
lemma consecutive_cons (dst : ℕ) (x : α) (xs : List α) :
    consecutive dst (x :: xs) = (dst, x) :: consecutive (dst + 1) xs := rfl

/-- The last element goes behind all others. -/
lemma consecutive_concat (dst : ℕ) (xs : List α) (x : α) :
    consecutive dst (xs ++ [x]) = consecutive dst xs ++ [(dst + xs.length, x)] := by
  simp [consecutive, List.zipIdx_append]

/-- Consecutive stores lie behind each other. -/
lemma mem_consecutive {dst : ℕ} {xs : List α} {store : ℕ × α} (h : store ∈ consecutive dst xs) :
    dst ≤ store.1 ∧ store.1 < dst + xs.length := by
  obtain ⟨x, hx, rfl⟩ := List.mem_map.1 h
  obtain ⟨hle, hlt, -⟩ := List.mem_zipIdx hx
  exact ⟨hle, hlt⟩

/-- Memory is as it was where nothing was stored. -/
lemma run_of_forall_ne {stores : List (ℕ × α)} {a : ℕ} (h : ∀ store ∈ stores, store.1 ≠ a)
    (m : Memory α) : m.run stores a = m a := by
  induction stores generalizing m with
  | nil => rfl
  | cons store stores ih =>
    have hne : a ≠ store.1 := by
      rintro rfl
      exact h store (by simp) rfl
    have hrest := ih (fun s hs => h s (by simp [hs])) (Function.update m store.1 store.2)
    rw [Function.update_of_ne hne] at hrest
    exact hrest

/-- Consecutive stores leave all memory before and behind them as it was. -/
lemma run_of_disjoint {dst a : ℕ} {xs : List α} (h : a < dst ∨ dst + xs.length ≤ a)
    (m : Memory α) : m.run (consecutive dst xs) a = m a := by
  apply run_of_forall_ne
  intro store hstore
  have := mem_consecutive hstore
  omega

/-- **What was stored is read back.**

**Proof sketch.** By induction on what was stored. The first element is not overwritten, since the
others go to the addresses behind it. -/
lemma read_run (m : Memory α) (dst : ℕ) (xs : List α) :
    (m.run (consecutive dst xs)).read dst xs.length = xs := by
  induction xs generalizing m dst with
  | nil => rfl
  | cons x xs ih =>
    have hfirst : run (Function.update m dst x) (consecutive (dst + 1) xs) dst = x := by
      rw [run_of_disjoint (.inl (Nat.lt_succ_self dst)), Function.update_self]
    rw [consecutive_cons, List.length_cons, read]
    exact List.cons_eq_cons.2 ⟨hfirst, ih _ _⟩

end Memory
