import Mathlib.Data.List.Basic

set_option relaxedAutoImplicit false
set_option autoImplicit false

/-!
# Interactive programs and their histories

A program that talks to its surroundings is a tree: it returns, it fails, or it performs an
operation and continues with the answer. A *history* is the list of operations it has performed
with the answers it got, so what a program may do is read off the histories it follows, whoever
answers.

The rules of this file are those of a program logic over histories: an obligation on every
operation a program performs, given what came before it, and a postcondition on how it ends.

## Main definitions

* `Prog` — programs over operations `Op` with answers `Ans o`, failures `ε` and results `α`.
* `Prog.each` — run a program on each element of a list.
* `Prog.Follows` — `p` after the history `h` is the program `q`.
* `Prog.run` — what a program performs, and how it ends, if each operation has a fixed answer.
* `Prog.Uses` — every operation a program may perform is of a certain kind.
* `Prog.Safe` — every operation meets its obligation and every end meets the postcondition, for
  all answers the surroundings may give.

## Main results

* `Prog.Safe.bind` — the rule for sequencing.
* `Prog.Safe.imp`, `Prog.Safe.shift` — the rules of consequence and of shifting.
* `Prog.Safe.sound` — a safe program that has followed a history has met every obligation on the
  way, and is still safe.
-/

/-- A program that performs operations. -/
inductive Prog (Op : Type) (Ans : Op → Type) (ε α : Type) where
  | ret (a : α)
  | fail (e : ε)
  | call (o : Op) (k : Ans o → Prog Op Ans ε α)

namespace Prog

variable {Op : Type} {Ans : Op → Type} {ε α β : Type}

/-- An operation together with the answer it got. -/
abbrev Evt (Op : Type) (Ans : Op → Type) : Type := Σ o : Op, Ans o

/-- Run `f` on the result of a program. -/
def bind : Prog Op Ans ε α → (α → Prog Op Ans ε β) → Prog Op Ans ε β
  | ret a, f => f a
  | fail e, _ => fail e
  | call o k, f => call o fun a => bind (k a) f

/-- Programs are sequenced by `bind`. -/
instance : Monad (Prog Op Ans ε) where
  pure := ret
  bind := bind

/-- Perform one operation. -/
def perform (o : Op) : Prog Op Ans ε (Ans o) := call o ret

/-- A program that performs nothing: the value of a fallible computation. -/
def ofExcept : Except ε α → Prog Op Ans ε α
  | .ok a => ret a
  | .error e => fail e

/-- Run `f` on each element of a list, in order. -/
def each (f : β → Prog Op Ans ε α) : List β → Prog Op Ans ε (List α)
  | [] => ret []
  | b :: bs => f b >>= fun a => each f bs >>= fun as => ret (a :: as)

/-- The program has returned or failed. -/
def Ended : Prog Op Ans ε α → Prop
  | ret _ | fail _ => True
  | call _ _ => False

/-- A pure value is a program that returns at once. -/
@[simp] lemma pure_eq (a : α) : (pure a : Prog Op Ans ε α) = ret a := rfl

/-- A program that has returned is followed by the rest. -/
@[simp] lemma ret_bind (a : α) (f : α → Prog Op Ans ε β) : (ret a >>= f) = f a := rfl

/-- A program that has failed is followed by nothing. -/
@[simp] lemma fail_bind (e : ε) (f : α → Prog Op Ans ε β) :
    ((fail e : Prog Op Ans ε α) >>= f) = fail e := rfl

/-- The rest of a program comes behind its first call. -/
@[simp] lemma call_bind (o : Op) (k : Ans o → Prog Op Ans ε α) (f : α → Prog Op Ans ε β) :
    (call o k >>= f) = call o fun a => k a >>= f := rfl

/-- An operation on its own, followed by the rest, is a call. -/
@[simp] lemma perform_bind (o : Op) (f : Ans o → Prog Op Ans ε β) :
    (perform o >>= f) = call o f := rfl

/-- A value that is there is returned. -/
@[simp] lemma ofExcept_ok (a : α) : (ofExcept (.ok a) : Prog Op Ans ε α) = ret a := rfl

/-- An error that is there ends the program. -/
@[simp] lemma ofExcept_error (e : ε) : (ofExcept (.error e) : Prog Op Ans ε α) = fail e := rfl

/-- Sequencing is associative. By induction on the first program: a call passes the question on to
each of its continuations. -/
lemma bind_assoc {γ : Type} (p : Prog Op Ans ε α) (f : α → Prog Op Ans ε β)
    (g : β → Prog Op Ans ε γ) : (p >>= f >>= g) = (p >>= fun a => f a >>= g) := by
  induction p with
  | ret a => rfl
  | fail e => rfl
  | call o k ih => exact congrArg (call o) (funext ih)

/-! ## Histories -/

/-- `p.Follows h q`: having performed the operations of `h` and got its answers, `p` goes on as
`q`. -/
inductive Follows : Prog Op Ans ε α → List (Evt Op Ans) → Prog Op Ans ε α → Prop where
  | nil (p : Prog Op Ans ε α) : Follows p [] p
  | cons {o : Op} {k : Ans o → Prog Op Ans ε α} {a : Ans o} {h : List (Evt Op Ans)}
      {q : Prog Op Ans ε α} (rest : Follows (k a) h q) : Follows (call o k) (⟨o, a⟩ :: h) q

/-- The operation a program performs next is added at the end of its history. -/
lemma Follows.snoc {p : Prog Op Ans ε α} {h : List (Evt Op Ans)} {o : Op}
    {k : Ans o → Prog Op Ans ε α} (hp : Follows p h (call o k)) (a : Ans o) :
    Follows p (h ++ [⟨o, a⟩]) (k a) := by
  generalize hq : call o k = q at hp
  induction hp with
  | nil p => exact hq ▸ .cons (.nil _)
  | cons _ ih => exact .cons (ih hq)

/-- A history that a program follows can be cut anywhere. -/
lemma Follows.split {p q : Prog Op Ans ε α} {h₁ h₂ : List (Evt Op Ans)}
    (hp : Follows p (h₁ ++ h₂) q) : ∃ r, Follows p h₁ r ∧ Follows r h₂ q := by
  induction h₁ generalizing p with
  | nil => exact ⟨p, .nil p, hp⟩
  | cons e h₁ ih =>
    rcases hp with _ | @⟨_, k, _, _, _, rest⟩
    obtain ⟨r, hr, hrest⟩ := ih rest
    exact ⟨r, .cons hr, hrest⟩

/-- Histories compose. -/
lemma Follows.append {p q r : Prog Op Ans ε α} {h₁ h₂ : List (Evt Op Ans)} (hp : Follows p h₁ q)
    (hq : Follows q h₂ r) : Follows p (h₁ ++ h₂) r := by
  induction hp with
  | nil => exact hq
  | cons _ ih => exact .cons (ih hq)

/-- A history leads a program to one place only, and what comes after it is followed from there. -/
lemma Follows.rest {p q r : Prog Op Ans ε α} {h₁ h₂ : List (Evt Op Ans)}
    (h : Follows p (h₁ ++ h₂) q)
    (hr : Follows p h₁ r) : Follows r h₂ q := by
  induction hr with
  | nil => exact h
  | cons _ ih =>
    rcases h with _ | @⟨_, _, _, _, _, hrest⟩
    exact ih hrest

/-- What a sequence of programs follows: the first to its result, then the second. -/
lemma Follows.bind {p : Prog Op Ans ε α} {f : α → Prog Op Ans ε β} {h : List (Evt Op Ans)}
    {q : Prog Op Ans ε α} (hp : Follows p h q) : Follows (p >>= f) h (q >>= f) := by
  induction hp with
  | nil p => exact .nil _
  | cons _ ih => exact .cons ih

/-- A program that has ended performs nothing more. -/
lemma Follows.of_ret {a : α} {h : List (Evt Op Ans)} {q : Prog Op Ans ε α}
    (hp : Follows (ret a) h q) : h = [] ∧ q = ret a := by
  cases hp
  exact ⟨rfl, rfl⟩

/-- A program that has failed is followed by nothing. -/
lemma Follows.of_fail {e : ε} {h : List (Evt Op Ans)} {q : Prog Op Ans ε α}
    (hp : Follows (fail e) h q) : h = [] ∧ q = fail e := by
  cases hp
  exact ⟨rfl, rfl⟩

/-- A program that still performs an operation and is followed to its end was answered. -/
lemma Follows.of_call {o : Op} {k : Ans o → Prog Op Ans ε α} {h : List (Evt Op Ans)}
    {q : Prog Op Ans ε α} (hp : Follows (call o k) h q) (hq : q.Ended) :
    ∃ a h', h = ⟨o, a⟩ :: h' ∧ Follows (k a) h' q := by
  cases hp with
  | nil => exact hq.elim
  | cons rest => exact ⟨_, _, rfl, rest⟩

/-- A sequence that has returned: its first program returned, and its second one went on from
there. -/
lemma Follows.of_bind {p : Prog Op Ans ε α} {f : α → Prog Op Ans ε β} {h : List (Evt Op Ans)}
    {b : β} (hf : Follows (p >>= f) h (ret b)) :
    ∃ a h₁ h₂, h = h₁ ++ h₂ ∧ Follows p h₁ (ret a) ∧ Follows (f a) h₂ (ret b) := by
  induction p generalizing h with
  | ret a => exact ⟨a, [], h, rfl, .nil _, hf⟩
  | fail e => cases hf.of_fail.2
  | call o k ih =>
    obtain ⟨a, h', rfl, hrest⟩ := hf.of_call trivial
    obtain ⟨b', h₁, h₂, rfl, h1, h2⟩ := ih a hrest
    exact ⟨b', ⟨o, a⟩ :: h₁, h₂, rfl, .cons h1, h2⟩

/-- **A loop followed to its end.** If each turn of a loop leaves a history in `N` and a result in
`P`, the whole loop leaves a history in `N` and one such result for each element.

**Proof sketch.** By induction on the list: the first turn leaves its part of the history, and the
rest is the loop over the others. -/
lemma Follows.of_each {γ : Type} {N : List (Evt Op Ans) → Prop} {P : β → α → Prop}
    {f : β → Prog Op Ans ε α} (nil : N []) (append : ∀ h h', N h → N h' → N (h ++ h'))
    {bs : List β} (turn : ∀ b ∈ bs, ∀ (g : α → Prog Op Ans ε γ) h q, Follows (f b >>= g) h q →
      q.Ended → ∃ pre a h', h = pre ++ h' ∧ N pre ∧ P b a ∧ Follows (g a) h' q)
    {g : List α → Prog Op Ans ε γ} {h : List (Evt Op Ans)} {q : Prog Op Ans ε γ}
    (hf : Follows (each f bs >>= g) h q) (hq : q.Ended) : ∃ pre as h', h = pre ++ h' ∧ N pre ∧
      List.Forall₂ P bs as ∧ Follows (g as) h' q := by
  induction bs generalizing g h with
  | nil => exact ⟨[], [], h, rfl, nil, .nil, hf⟩
  | cons b bs ih =>
    simp only [each, bind_assoc] at hf
    obtain ⟨pre, a, h', rfl, hpre, ha, hrest⟩ := turn b (by simp) _ _ _ hf hq
    obtain ⟨pre', as, h'', rfl, hpre', has, hlast⟩ := ih (fun b hb => turn b (by simp [hb]))
      (g := fun as => g (a :: as)) hrest
    exact ⟨pre ++ pre', a :: as, h'', by simp, append _ _ hpre hpre', .cons ha has, hlast⟩

/-! ## Obligations -/

section Safe

variable (R : (o : Op) → Ans o → Prop) (I : List (Evt Op Ans) → Op → Prop)
  (Q : List (Evt Op Ans) → Except ε α → Prop)

/-- From the history `h` on, every operation `o` that the program performs meets `I` of what came
before it, and the program ends in `Q`, as long as every answer satisfies `R`. -/
def Safe : List (Evt Op Ans) → Prog Op Ans ε α → Prop
  | h, ret a => Q h (.ok a)
  | h, fail e => Q h (.error e)
  | h, call o k => I h o ∧ ∀ a, R o a → Safe (h ++ [⟨o, a⟩]) (k a)

/-- A program that returns is safe if the result may end the run. -/
@[simp] lemma safe_ret (h : List (Evt Op Ans)) (a : α) :
    Safe (ε := ε) R I Q h (ret a) ↔ Q h (.ok a) := Iff.rfl

/-- A program that fails is safe if the error may end the run. -/
@[simp] lemma safe_fail (h : List (Evt Op Ans)) (e : ε) :
    Safe R I Q h (fail e) ↔ Q h (.error e) := Iff.rfl

/-- A call is safe if it is allowed and the continuation is safe for every answer that may come
back. -/
@[simp] lemma safe_call (h : List (Evt Op Ans)) (o : Op) (k : Ans o → Prog Op Ans ε α) :
    Safe R I Q h (call o k) ↔ I h o ∧ ∀ a, R o a → Safe R I Q (h ++ [⟨o, a⟩]) (k a) := Iff.rfl

/-- An answer that may be an error is a value or an error. -/
lemma forall_except {ε β : Type} {P : Except ε β → Prop} :
    (∀ a, P a) ↔ (∀ b, P (.ok b)) ∧ ∀ e, P (.error e) := by
  refine ⟨fun h => ⟨fun b => h (.ok b), fun e => h (.error e)⟩, fun h a => ?_⟩
  cases a with
  | error e => exact h.2 e
  | ok b => exact h.1 b

variable {R I Q}

/-- **Sequencing.** The program `f a` starts from the history in which `p` returned `a`. -/
theorem Safe.bind {S : List (Evt Op Ans) → Except ε β → Prop} {p : Prog Op Ans ε α}
    {f : α → Prog Op Ans ε β} {h : List (Evt Op Ans)} (hp : Safe R I Q h p)
    (hok : ∀ h' a, Q h' (.ok a) → Safe R I S h' (f a))
    (herr : ∀ h' e, Q h' (.error e) → S h' (.error e)) : Safe R I S h (p >>= f) := by
  induction p generalizing h with
  | ret a => exact hok h a hp
  | fail e => exact herr h e hp
  | call o k ih => exact ⟨hp.1, fun a ha => ih a (hp.2 a ha)⟩

/-- **Consequence.** A safe program is safe for a weaker end. -/
theorem Safe.imp {E : List (Evt Op Ans) → Except ε α → Prop} {p : Prog Op Ans ε α}
    {h : List (Evt Op Ans)} (hp : Safe R I Q h p) (hQ : ∀ h' r, Q h' r → E h' r) :
    Safe R I E h p := by
  induction p generalizing h with
  | ret a => exact hQ h (.ok a) hp
  | fail e => exact hQ h (.error e) hp
  | call o k ih => exact ⟨hp.1, fun a ha => ih a (hp.2 a ha)⟩

/-- **Shifting.** What a safe program owes from `h` on can be read after a history that came before
it.

**Proof sketch.** By induction on the program. Each call adds its answer to the history, and the two
conditions speak of all extensions of it. -/
theorem Safe.shift {J : List (Evt Op Ans) → Op → Prop} {E : List (Evt Op Ans) → Except ε α → Prop}
    {p : Prog Op Ans ε α} {h : List (Evt Op Ans)} (hp : Safe R I Q h p) (pre : List (Evt Op Ans))
    (hI : ∀ h' o, I (h ++ h') o → J (pre ++ (h ++ h')) o)
    (hQ : ∀ h' r, Q (h ++ h') r → E (pre ++ (h ++ h')) r) : Safe R J E (pre ++ h) p := by
  induction p generalizing h with
  | ret a => simpa using hQ [] (.ok a) (by simpa using hp)
  | fail e => simpa using hQ [] (.error e) (by simpa using hp)
  | call o k ih =>
    refine ⟨by simpa using hI [] o (by simpa using hp.1), fun a ha => ?_⟩
    rw [List.append_assoc]
    refine ih a (hp.2 a ha) (fun h' o' ho => ?_) fun h' r hr => ?_
    · rw [List.append_assoc] at ho ⊢
      exact hI _ o' ho
    · rw [List.append_assoc] at hr ⊢
      exact hQ _ r hr

/-- **Loops.** What every turn of a loop keeps, the whole loop keeps, and what every turn says of
its result holds of each result. -/
theorem Safe.each {γ : Type} {N : List (Evt Op Ans) → Prop} {P : γ → α → Prop}
    {f : γ → Prog Op Ans ε α} {bs : List γ} {h : List (Evt Op Ans)}
    (turn : ∀ b ∈ bs, ∀ h, N h → Safe R I (fun h r => N h ∧ ∀ a, r = .ok a → P b a) h (f b))
    (hN : N h) : Safe (α := List α) R I
      (fun h r => N h ∧ ∀ as, r = .ok as → List.Forall₂ P bs as) h (each f bs) := by
  induction bs generalizing h with
  | nil => exact ⟨hN, by simp⟩
  | cons b bs ih =>
    refine (turn b (by simp) h hN).bind (fun h' a hq => ?_) fun h' e hq => ⟨hq.1, by simp⟩
    refine (ih (fun b hb => turn b (by simp [hb])) hq.1).bind (fun _ as hqs => ⟨hqs.1, ?_⟩)
      fun _ _ hqs => ⟨hqs.1, by simp⟩
    rintro _ ⟨⟩
    exact .cons (hq.2 a rfl) (hqs.2 as rfl)

/-- A fallible value is safe if the rest is safe for the value, and its error may end the run. -/
lemma safe_ofExcept_bind {h : List (Evt Op Ans)} {x : Except ε α}
    {f : α → Prog Op Ans ε β} {Q' : List (Evt Op Ans) → Except ε β → Prop} :
    Safe R I Q' h (ofExcept x >>= f) ↔
      (∀ a, x = .ok a → Safe R I Q' h (f a)) ∧ ∀ e, x = .error e → Q' h (.error e) := by
  rcases x with e | a <;> simp

/-- **Soundness.** A safe program whose answers satisfied `R` met its obligation at every
operation of the history it followed, and what is left of it is safe.

**Proof sketch.** By induction on what was followed. The first call met its obligation, since the
program is safe, and the rest is safe for the answer that came. -/
theorem Safe.sound {p q : Prog Op Ans ε α} {h₀ h : List (Evt Op Ans)} (hp : Safe R I Q h₀ p)
    (hf : Follows p h q) (hR : ∀ e ∈ h, R e.1 e.2) :
    (∀ h₁ e h₂, h = h₁ ++ e :: h₂ → I (h₀ ++ h₁) e.1) ∧ Safe R I Q (h₀ ++ h) q := by
  induction hf generalizing h₀ with
  | nil p =>
    refine ⟨fun h₁ e h₂ he => ?_, by simpa using hp⟩
    simp at he
  | @cons o k a h q _ ih =>
    obtain ⟨hfirst, hrest⟩ := ih (hp.2 a (hR ⟨o, a⟩ (by simp))) fun e he => hR e (by simp [he])
    refine ⟨fun h₁ e h₂ he => ?_, by simpa using hrest⟩
    rcases h₁ with _ | ⟨e₁, h₁⟩
    · simp only [List.nil_append, List.cons.injEq] at he
      simpa [← he.1] using hp.1
    · simp only [List.cons_append, List.cons.injEq] at he
      simpa [← he.1] using hfirst h₁ e h₂ he.2

/-- What a safe program guarantees about the operations of a history it followed. -/
lemma Safe.obligation {p q : Prog Op Ans ε α} {h₁ h₂ : List (Evt Op Ans)} {e : Evt Op Ans}
    (hp : Safe R I Q [] p) (hf : Follows p (h₁ ++ e :: h₂) q)
    (hR : ∀ e' ∈ h₁ ++ e :: h₂, R e'.1 e'.2) : I h₁ e.1 :=
  (hp.sound hf hR).1 h₁ e h₂ rfl

/-- What a safe program guarantees about a history on which it ended. -/
lemma Safe.ended {p q : Prog Op Ans ε α} {h : List (Evt Op Ans)} (hp : Safe R I Q [] p)
    (hf : Follows p h q) (hR : ∀ e ∈ h, R e.1 e.2) (hq : q.Ended) : ∃ r, Q h r := by
  have hs := (hp.sound hf hR).2
  cases q with
  | ret a => exact ⟨.ok a, by simpa using hs⟩
  | fail e => exact ⟨.error e, by simpa using hs⟩
  | call o k => exact hq.elim

/-- What a safe program guarantees about a history on which it returned. -/
lemma Safe.returned {p : Prog Op Ans ε α} {h : List (Evt Op Ans)} {a : α}
    (hp : Safe R I Q [] p) (hf : Follows p h (ret a)) (hR : ∀ e ∈ h, R e.1 e.2) : Q h (.ok a) := by
  simpa using (hp.sound hf hR).2

end Safe

/-! ## The operations a program may perform -/

/-- Every operation the program may ever perform satisfies `P`. -/
inductive Uses (P : Op → Prop) : Prog Op Ans ε α → Prop where
  | ret (a : α) : Uses P (ret a)
  | fail (e : ε) : Uses P (fail e)
  | call {o : Op} {k : Ans o → Prog Op Ans ε α} (now : P o) (rest : ∀ a, Uses P (k a)) :
      Uses P (call o k)

section Uses

variable {P : Op → Prop}

/-- A fallible value uses no operation. -/
lemma Uses.ofExcept (x : Except ε α) : Uses P (ofExcept x : Prog Op Ans ε α) := by
  rcases x with e | a
  · exact .fail e
  · exact .ret a

/-- A sequence uses what its two parts use. -/
lemma Uses.bind {p : Prog Op Ans ε α} {f : α → Prog Op Ans ε β} (hp : Uses P p)
    (hf : ∀ a, Uses P (f a)) : Uses P (p >>= f) := by
  induction hp with
  | ret a => exact hf a
  | fail e => exact .fail e
  | call now _ ih => exact .call now fun a => ih a

/-- A loop over a list uses what its body uses. -/
lemma Uses.each {f : β → Prog Op Ans ε α} (hf : ∀ b, Uses P (f b)) (bs : List β) :
    Uses P (each f bs) := by
  induction bs with
  | nil => exact .ret []
  | cons b bs ih => exact (hf b).bind fun _ => ih.bind fun _ => .ret _

/-- What a program may ever perform is added to what it owes. -/
lemma Safe.and_uses {R : (o : Op) → Ans o → Prop} {I : List (Evt Op Ans) → Op → Prop}
    {Q : List (Evt Op Ans) → Except ε α → Prop} {p : Prog Op Ans ε α} {h : List (Evt Op Ans)}
    (hp : Safe R I Q h p) (hu : Uses P p) : Safe R (fun h o => I h o ∧ P o) Q h p := by
  induction hu generalizing h with
  | ret a => exact hp
  | fail e => exact hp
  | call now _ ih => exact ⟨⟨hp.1, now⟩, fun a ha => ih a (hp.2 a ha)⟩

/-- A program owes what holds of every operation it may perform. -/
lemma Uses.safe {R : (o : Op) → Ans o → Prop} {p : Prog Op Ans ε α} (hu : Uses P p)
    (h : List (Evt Op Ans)) : Safe R (fun _ o => P o) (fun _ _ => True) h p := by
  induction hu generalizing h with
  | ret a => trivial
  | fail e => trivial
  | call now _ ih => exact ⟨now, fun a _ => ih a _⟩

end Uses

/-! ## Fixed answers -/

section Run

variable (env : ∀ o, Ans o)

/-- The operations that a program performs, and its end, if the surroundings answer each operation
in a fixed way. -/
def run : Prog Op Ans ε α → List Op × Except ε α
  | ret a => ([], .ok a)
  | fail e => ([], .error e)
  | call o k => (o :: (run (k (env o))).1, (run (k (env o))).2)

/-- A program that returns does so in every environment, without an operation. -/
@[simp] lemma run_ret (a : α) : run env (ret a : Prog Op Ans ε α) = ([], .ok a) := rfl

/-- A program that fails does so in every environment, without an operation. -/
@[simp] lemma run_fail (e : ε) : run env (fail e : Prog Op Ans ε α) = ([], .error e) := rfl

/-- A call is put to the environment, and its answer is handed to the continuation. -/
@[simp] lemma run_call (o : Op) (k : Ans o → Prog Op Ans ε α) :
    run env (call o k) = (o :: (run env (k (env o))).1, (run env (k (env o))).2) := rfl

/-- A sequence whose first program returns goes on with the second one. -/
lemma run_bind_ok {p : Prog Op Ans ε α} {f : α → Prog Op Ans ε β} {ops : List Op} {a : α}
    (hp : run env p = (ops, .ok a)) :
    run env (p >>= f) = (ops ++ (run env (f a)).1, (run env (f a)).2) := by
  induction p generalizing ops with
  | ret a' =>
    obtain ⟨rfl, ha⟩ := Prod.mk.inj hp
    obtain rfl := Except.ok.inj ha
    rfl
  | fail e => cases (Prod.mk.inj hp).2
  | call o k ih =>
    obtain ⟨rfl, ha⟩ := Prod.mk.inj hp
    rw [call_bind, run_call, ih (env o) (Prod.ext rfl ha)]
    rfl

/-- What a program performs is what it may perform. -/
lemma Uses.run {P : Op → Prop} {p : Prog Op Ans ε α} (hp : Uses P p) :
    ∀ o ∈ (p.run env).1, P o := by
  induction hp with
  | ret a => simp
  | fail e => simp
  | @call o k now _ ih =>
    intro o' ho'
    rcases List.mem_cons.1 ho' with rfl | ho'
    · exact now
    · exact ih (env o) o' ho'

end Run

/-- If no event that satisfies `P` comes after another one, a history has at most one.

**Proof sketch.** Of two such events at different places the earlier one would come before the later
one. -/
lemma eq_of_never_before {P : Evt Op Ans → Prop} {h : List (Evt Op Ans)}
    (hP : ∀ h₁ e h₂, h = h₁ ++ e :: h₂ → P e → ∀ e' ∈ h₁, ¬ P e') {e e' : Evt Op Ans}
    (he : e ∈ h) (he' : e' ∈ h) (hPe : P e) (hPe' : P e') : e = e' := by
  obtain ⟨i, hi, rfl⟩ := List.mem_iff_getElem.1 he
  obtain ⟨j, hj, rfl⟩ := List.mem_iff_getElem.1 he'
  have split : ∀ k (hk : k < h.length), h = h.take k ++ h[k] :: h.drop (k + 1) := fun k hk => by
    rw [List.getElem_cons_drop, List.take_append_drop]
  have before : ∀ k l (hk : k < h.length) (hl : l < k), P h[k] → ¬ P h[l] := by
    intro k l hk hl hPk
    refine hP _ _ _ (split k hk) hPk _ ?_
    exact List.mem_iff_getElem.2 ⟨l, by simp; omega, by simp⟩
  rcases Nat.lt_trichotomy i j with hij | rfl | hij
  · exact absurd hPe (before j i hj hij hPe')
  · rfl
  · exact absurd hPe' (before i j hi hij hPe)

end Prog
