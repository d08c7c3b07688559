import Mathlib.Data.Set.Basic

set_option relaxedAutoImplicit false
set_option autoImplicit false

/-!
# Sealed letters on an open board

Some parties leave sealed letters where everybody can read them, copy them and leave contents of
their own. A letter opens under one key. Who does not have a secret key makes up no content that
opens under it, but may leave any other content, any number of times, and beside any letter. A
reader goes through what it is shown and takes the first thing it can open.

## Main definitions

* `Post` — letters, the keys they open under, and the keys that are secret.
* `Board`, `Board.Reachable` — what was left and what was sealed, and the boards that come about.

## Main results

* `Board.Reachable.exists_sealed` — what opens under a secret key was sealed under it.
-/

variable {ℓ κ χ π : Type*}

/-- What a system of letters consists of: the text a content opens to under a key, the key and the
text of a letter, and the keys that stay with the parties that seal letters. -/
structure Post (ℓ κ χ π : Type*) where
  opens : κ → χ → Option π
  key : ℓ → κ
  text : ℓ → π
  secret : Set κ

/-- The contents that were left, and the letters that were sealed, with their contents. -/
structure Board (ℓ χ : Type*) where
  posted : List χ
  sealed : List (ℓ × χ)

namespace Board

/-- The boards that come about while the secret keys stay secret. What is sealed is recorded with
its content, so that a content that opens can be led back to its letter. -/
inductive Reachable (P : Post ℓ κ χ π) : Board ℓ χ → Prop where
  | empty : Reachable P ⟨[], []⟩
  /-- A letter is sealed, and opens under its own key only. -/
  | letter {b : Board ℓ χ} (h : Reachable P b) (l : ℓ) (c : χ)
      (own : P.opens (P.key l) c = some (P.text l))
      (others : ∀ k ∈ P.secret, k ≠ P.key l → P.opens k c = none) :
      Reachable P ⟨c :: b.posted, (l, c) :: b.sealed⟩
  /-- Anybody leaves a content that opens under no secret key. -/
  | leave {b : Board ℓ χ} (h : Reachable P b) (c : χ)
      (blind : ∀ k ∈ P.secret, P.opens k c = none) : Reachable P ⟨c :: b.posted, b.sealed⟩

variable {P : Post ℓ κ χ π} {b : Board ℓ χ}

/-- **What opens under a secret key was sealed under it**, to the text it opens to.

**Proof sketch.** By induction on how the board came about. The content that was left last is a
letter, which opens under its own key only, or one that opens under no secret key at all. -/
theorem Reachable.exists_sealed (h : Reachable P b) {c : χ} (hc : c ∈ b.posted) {k : κ}
    (hk : k ∈ P.secret) {p : π} (hp : P.opens k c = some p) :
    ∃ l, (l, c) ∈ b.sealed ∧ P.key l = k ∧ P.text l = p := by
  induction h with
  | empty => exact absurd hc List.not_mem_nil
  | @letter b h l c' own others ih =>
    rcases List.mem_cons.1 hc with rfl | hc
    · by_cases hkey : k = P.key l
      · subst hkey
        rw [own] at hp
        exact ⟨l, List.mem_cons_self, rfl, Option.some.inj hp⟩
      · rw [others k hk hkey] at hp
        cases hp
    · obtain ⟨l', hl', hrest⟩ := ih hc
      exact ⟨l', List.mem_cons_of_mem _ hl', hrest⟩
  | @leave b h c' blind ih =>
    rcases List.mem_cons.1 hc with rfl | hc
    · rw [blind k hk] at hp
      cases hp
    · exact ih hc

end Board
