import Mathlib.Data.List.Basic

set_option relaxedAutoImplicit false
set_option autoImplicit false

/-!
# Ledgers

A ledger lists what was taken and what was given back, in order, and what is still held can be read
off it. A queue that keeps the newest few of what is put into it, and gives back the oldest, is in
step with the ledger of what it does.

## Main definitions

* `Ledger.Entry`, `Ledger.held` — a ledger, and what is held at its end.
* `Ledger.newest`, `Ledger.oldest` — what a queue of some size keeps of a list, and what it gives
  back.

## Main results

* `Ledger.held_push` — a queue that something is put into stays in step with its ledger.
* `Ledger.held_clear` — so does one that is emptied.
* `Ledger.newest_newest_append` — it holds the newest of all that was put into it.
-/

namespace Ledger

/-- Something is taken, or given back. -/
inductive Entry (α : Type*) where
  | take (a : α)
  | release (a : α)

section Queue

variable {α : Type*} {n : ℕ} {l : List α} {a : α}

/-- The newest of a list, at most so many. -/
def newest (n : ℕ) (l : List α) : List α := l.drop (l.length - n)

/-- The others. -/
def oldest (n : ℕ) (l : List α) : List α := l.take (l.length - n)

/-- The oldest and the newest make up the whole list. -/
lemma oldest_append_newest (n : ℕ) (l : List α) : oldest n l ++ newest n l = l :=
  List.take_append_drop _ _

/-- A queue forgets nothing that it would keep of the whole list. -/
lemma newest_newest_append (n : ℕ) (l : List α) (a : α) :
    newest n (newest n l ++ [a]) = newest n (l ++ [a]) := by
  have hdrop : newest n l ++ [a] = (l ++ [a]).drop (l.length - n) :=
    (List.drop_append_of_le_length (Nat.sub_le _ _)).symm
  rw [hdrop]
  simp only [newest, List.drop_drop, List.length_drop, List.length_append, List.length_singleton]
  congr 1
  omega

end Queue

variable {α : Type*} [DecidableEq α] {entries : List (Entry α)} {l : List α}

/-- What is held after an entry. -/
def after (held : List α) : Entry α → List α
  | .take a => held ++ [a]
  | .release a => held.erase a

/-- What is held at the end of a ledger, in the order in which it was taken. -/
def held (entries : List (Entry α)) : List α := entries.foldl after []

/-- The oldest things are given back one by one. -/
lemma foldl_release (l m : List α) : (l.map Entry.release).foldl after (l ++ m) = m := by
  induction l with
  | nil => rfl
  | cons a l ih =>
    rw [List.map_cons, List.foldl_cons, after, List.cons_append, List.erase_cons_head]
    exact ih

/-- **A queue that something is put into** stays in step with its ledger. -/
theorem held_push (h : held entries = l) (n : ℕ) (a : α) :
    held (entries ++ .take a :: (oldest n (l ++ [a])).map .release) = newest n (l ++ [a]) := by
  unfold held at h ⊢
  rw [List.foldl_append, h, List.foldl_cons, after]
  have hrelease := foldl_release (oldest n (l ++ [a])) (newest n (l ++ [a]))
  rwa [oldest_append_newest] at hrelease

/-- **A queue that is emptied** stays in step with its ledger. -/
theorem held_clear (h : held entries = l) : held (entries ++ l.map .release) = [] := by
  unfold held at h ⊢
  rw [List.foldl_append, h]
  have hrelease := foldl_release l []
  rwa [List.append_nil] at hrelease

end Ledger
