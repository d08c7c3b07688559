import Mathlib.Data.List.Forall2

set_option relaxedAutoImplicit false
set_option autoImplicit false

/-!
# Streams that arrive in chunks

A byte stream hands over its contents in chunks, cut wherever it pleases. What is read from it by
taking given numbers of elements depends on the contents alone. The rules below say so for one read,
and for a reader that is called until it fails.

## Main definitions

* `Chunks.takeExact` — take as many elements as are asked for.
* `Chunks.Reads` — what a reader returns when it is called again and again.

## Main results

* `Chunks.takeExact_append`, `Chunks.takeExact_eq_none` — a read in terms of the contents.
* `Chunks.Reads.unique` — a reader returns one sequence.
* `Chunks.Reads.of_items` — a reader that returns each item from any chunking of its encoding
  returns a sequence of items from any chunking of their encodings.
-/

namespace Chunks

variable {α β ε : Type*}

/-- Take `n` elements from the front of a stream, or fail if it ends before. The chunks are taken
from the front, and the one that is longer than what is left to take is cut. -/
def takeExact : ℕ → List (List α) → Option (List α × List (List α))
  | 0, cs => some ([], cs)
  | _ + 1, [] => none
  | n + 1, c :: cs =>
    if n + 1 ≤ c.length then some (c.take (n + 1), c.drop (n + 1) :: cs)
    else (takeExact (n + 1 - c.length) cs).map fun (xs, rest) => (c ++ xs, rest)

/-- A chunk that is long enough is cut. -/
lemma takeExact_of_le {n : ℕ} {c : List α} {cs : List (List α)} (h : n ≤ c.length) :
    ∃ rest, takeExact n (c :: cs) = some (c.take n, rest) ∧
      rest.flatten = c.drop n ++ cs.flatten := by
  rcases n with _ | n
  · exact ⟨c :: cs, rfl, rfl⟩
  · exact ⟨c.drop (n + 1) :: cs, if_pos h, rfl⟩

/-- A chunk that is too short is used up. -/
lemma takeExact_of_lt {n : ℕ} {c : List α} {cs : List (List α)} (h : c.length < n) :
    takeExact n (c :: cs) =
      (takeExact (n - c.length) cs).map fun (xs, rest) => (c ++ xs, rest) := by
  rcases n with _ | n
  · exact absurd h (Nat.not_lt_zero _)
  · exact if_neg (Nat.not_le.2 h)

/-- **One read.** Whatever the chunks, the elements at the front are taken, and the others are left.

**Proof sketch.** By induction on the chunks. What is asked for ends within the first chunk, or
covers it and goes on in the others. -/
theorem takeExact_append {cs : List (List α)} {xs ys : List α} (h : cs.flatten = xs ++ ys) :
    ∃ rest, takeExact xs.length cs = some (xs, rest) ∧ rest.flatten = ys := by
  induction cs generalizing xs with
  | nil =>
    obtain ⟨rfl, rfl⟩ := List.nil_eq_append_iff.1 h
    exact ⟨[], rfl, rfl⟩
  | cons c cs ih =>
    rw [List.flatten_cons] at h
    have within : ∀ zs, c = xs ++ zs → ys = zs ++ cs.flatten →
        ∃ rest, takeExact xs.length (c :: cs) = some (xs, rest) ∧ rest.flatten = ys := by
      rintro zs rfl rfl
      have hle : xs.length ≤ (xs ++ zs).length := by simp
      obtain ⟨rest, hrest, hflat⟩ := takeExact_of_le hle
      rw [List.take_left' rfl] at hrest
      rw [List.drop_left' rfl] at hflat
      exact ⟨rest, hrest, hflat⟩
    rcases List.append_eq_append_iff.1 h with ⟨zs, rfl, hcs⟩ | ⟨zs, hc, hys⟩
    · rcases zs with _ | ⟨z, zs⟩
      · exact within [] (by simp) hcs.symm
      · obtain ⟨rest, hrest, hflat⟩ := ih hcs
        refine ⟨rest, ?_, hflat⟩
        rw [takeExact_of_lt (by simp), List.length_append, Nat.add_sub_cancel_left, hrest]
        rfl
    · exact within zs hc hys

/-- A read fails exactly when the stream is too short.

**Proof sketch.** A stream that is long enough begins with as many elements, so a read succeeds.
Conversely, by induction on the chunks: a chunk that is too short is used up, and the rest is too
short for the rest. -/
theorem takeExact_eq_none {n : ℕ} {cs : List (List α)} :
    takeExact n cs = none ↔ cs.flatten.length < n := by
  constructor
  · intro h
    by_contra hle
    obtain ⟨rest, hrest, -⟩ := takeExact_append (List.take_append_drop n cs.flatten).symm
    rw [List.length_take, Nat.min_eq_left (Nat.not_lt.1 hle), h] at hrest
    cases hrest
  · intro h
    induction cs generalizing n with
    | nil =>
      rcases n with _ | n
      · exact absurd h (Nat.not_lt_zero _)
      · rfl
    | cons c cs ih =>
      rw [List.flatten_cons, List.length_append] at h
      rw [takeExact_of_lt (by omega), ih (by omega)]
      rfl

/-- What a read returns was at the front of the stream. -/
lemma takeExact_eq_some {n : ℕ} {cs rest : List (List α)} {xs : List α}
    (h : takeExact n cs = some (xs, rest)) : xs.length = n ∧ cs.flatten = xs ++ rest.flatten := by
  have hle : n ≤ cs.flatten.length := by
    by_contra hlt
    rw [takeExact_eq_none.2 (Nat.not_le.1 hlt)] at h
    cases h
  obtain ⟨rest', hrest, hflat⟩ := takeExact_append (List.take_append_drop n cs.flatten).symm
  rw [List.length_take, Nat.min_eq_left hle, h] at hrest
  obtain ⟨rfl, rfl⟩ := Prod.mk.inj (Option.some.inj hrest)
  rw [hflat, List.take_append_drop, List.length_take, Nat.min_eq_left hle]
  exact ⟨rfl, rfl⟩

/-! ## Reading until it fails -/

variable (read : List (List α) → Except ε (β × List (List α)))

/-- `Reads read cs bs e`: called again and again on a stream, a reader returns the items of `bs` and
then fails with `e`. -/
inductive Reads : List (List α) → List β → ε → Prop where
  | stop {cs : List (List α)} {e : ε} (fails : read cs = .error e) : Reads cs [] e
  | next {cs rest : List (List α)} {b : β} {bs : List β} {e : ε} (returns : read cs = .ok (b, rest))
      (more : Reads rest bs e) : Reads cs (b :: bs) e

variable {read}

/-- A reader returns one sequence.

**Proof sketch.** By induction on the first sequence. At each step the reader either fails or
returns, so both sequences stop or go on together. -/
theorem Reads.unique {cs : List (List α)} {bs bs' : List β} {e e' : ε} (h : Reads read cs bs e)
    (h' : Reads read cs bs' e') : bs = bs' ∧ e = e' := by
  induction h generalizing bs' with
  | stop fails =>
    cases h' with
    | stop fails' => exact ⟨rfl, Except.error.inj (fails.symm.trans fails')⟩
    | next returns _ => cases fails.symm.trans returns
  | next returns _ ih =>
    cases h' with
    | stop fails => cases fails.symm.trans returns
    | next returns' more =>
      obtain ⟨rfl, rfl⟩ := Prod.mk.inj (Except.ok.inj (returns.symm.trans returns'))
      obtain ⟨rfl, rfl⟩ := ih more
      exact ⟨rfl, rfl⟩

/-- **Sequences.** A reader that returns an item from any chunking of its encoding and of what
follows, and that fails in one way at the end of a stream, returns a sequence of items from any
chunking of their encodings.

**Proof sketch.** By induction on the items: the first read returns the first item and leaves the
encodings of the others, in some chunking. -/
theorem Reads.of_items {P : β → List α → Prop} {e : ε}
    (item : ∀ b xs cs ys, P b xs → cs.flatten = xs ++ ys →
      ∃ rest, read cs = .ok (b, rest) ∧ rest.flatten = ys)
    (ends : ∀ cs, cs.flatten = [] → read cs = .error e) {bs : List β} {xss : List (List α)}
    (h : List.Forall₂ P bs xss) {cs : List (List α)} (hcs : cs.flatten = xss.flatten) :
    Reads read cs bs e := by
  induction h generalizing cs with
  | nil => exact .stop (ends cs hcs)
  | cons hP _ ih =>
    obtain ⟨rest, hread, hrest⟩ := item _ _ cs _ hP hcs
    exact .next hread (ih hrest)

end Chunks
