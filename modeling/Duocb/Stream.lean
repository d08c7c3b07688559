import Duocb.Handshake

set_option relaxedAutoImplicit false
set_option autoImplicit false

/-!
# Two handshakes over a faithful stream

Two programs run against each other over a reliable, ordered stream in each direction: a read
returns the next frame the other side wrote, waits while there is none, and fails only when the
other side has ended and everything it wrote has been read. The two sides take their steps in any
order. What a side does not do on the stream is answered by a predicate of its own.

## Main definitions

* `Duocb.Joint` — the states two programs reach against each other.

## Main results

* `Duocb.Joint.read_left` — a read returns the frame that stands at its place in what the other
  side wrote.
* `Duocb.Joint.progress` — when two sides never both wait in vain, one of them can take a step.
* `Duocb.Joint.completes` — when neither side can wait for the other forever, every joint run can
  be continued until both have ended.
-/

namespace Duocb

/-- The frame an event put on the stream. -/
def wrote : HandshakeEvt → Option Frame
  | ⟨.write frame, .ok ()⟩ => some frame
  | _ => none

/-- Whether an event is a read. -/
def isRead : HandshakeEvt → Bool
  | ⟨.read _, _⟩ => true
  | _ => false

/-- The frames a side has written. -/
def writes (h : List HandshakeEvt) : List Frame := h.filterMap wrote

/-- How many reads a side has made. -/
def readCount (h : List HandshakeEvt) : ℕ := h.countP isRead

/-- What was written in two stretches of a history, one after the other. -/
@[simp] lemma writes_append (h h' : List HandshakeEvt) :
    writes (h ++ h') = writes h ++ writes h' := by simp [writes]

/-- How many frames were read in two stretches of a history, one after the other. -/
@[simp] lemma readCount_append (h h' : List HandshakeEvt) :
    readCount (h ++ h') = readCount h + readCount h' := by simp [readCount]

/-- Nothing was written in an empty history. -/
@[simp] lemma writes_nil : writes [] = [] := rfl

/-- A frame that was written comes first. -/
@[simp] lemma writes_write (frame : Frame) (h : List HandshakeEvt) :
    writes (⟨.write frame, .ok ()⟩ :: h) = frame :: writes h := rfl

/-- A read writes nothing. -/
@[simp] lemma writes_read (max : ℕ) (r : Except Error Frame) (h : List HandshakeEvt) :
    writes (⟨.read max, r⟩ :: h) = writes h := rfl

/-- A commit writes nothing. -/
@[simp] lemma writes_commitPin (b : Bool) (h : List HandshakeEvt) :
    writes (⟨.commitPin, b⟩ :: h) = writes h := rfl

/-- Drawing a scalar writes nothing. -/
@[simp] lemma writes_randomScalar (x : ℕ) (h : List HandshakeEvt) :
    writes (⟨.randomScalar, x⟩ :: h) = writes h := rfl

/-- Drawing a password writes nothing. -/
@[simp] lemma writes_randomPassword (pw : PinPassword) (h : List HandshakeEvt) :
    writes (⟨.randomPassword, pw⟩ :: h) = writes h := rfl

/-- Drawing a scalar reads nothing. -/
@[simp] lemma readCount_randomScalar (x : ℕ) (h : List HandshakeEvt) :
    readCount (⟨.randomScalar, x⟩ :: h) = readCount h :=
  List.countP_cons_of_neg Bool.false_ne_true

/-- Drawing a password reads nothing. -/
@[simp] lemma readCount_randomPassword (pw : PinPassword) (h : List HandshakeEvt) :
    readCount (⟨.randomPassword, pw⟩ :: h) = readCount h :=
  List.countP_cons_of_neg Bool.false_ne_true

/-- Nothing was read in an empty history. -/
@[simp] lemma readCount_nil : readCount [] = 0 := rfl

/-- A write reads nothing. -/
@[simp] lemma readCount_write (frame : Frame) (a : Except Error Unit) (h : List HandshakeEvt) :
    readCount (⟨.write frame, a⟩ :: h) = readCount h :=
  List.countP_cons_of_neg Bool.false_ne_true

/-- A read counts, whatever it brings. -/
@[simp] lemma readCount_read (max : ℕ) (r : Except Error Frame) (h : List HandshakeEvt) :
    readCount (⟨.read max, r⟩ :: h) = readCount h + 1 := List.countP_cons_of_pos rfl

variable {α β : Type}

/-- The answers a side may get: from the stream, or from `A`. A write succeeds. A read gets the next
frame of the other side if that is not too long, and the end of the stream once the other side has
ended. -/
def StreamAns (A : (o : Op) → Ans o → Prop) (mine theirs : List HandshakeEvt) (ended : Prop) :
    (o : Op) → Ans o → Prop
  | .write _, (r : Except Error Unit) => r = .ok ()
  | .read max, (r : Except Error Frame) =>
    match (writes theirs)[readCount mine]? with
    | some frame => (frame.size ≤ max ∧ r = .ok frame) ∨
        (max < frame.size ∧ r = .error (.msg s!"Message length too large: {frame.size} bytes"))
    | none => ended ∧ r = .error ((Error.msg "early eof").context "Failed to read message length")
  | o, a => A o a

/-- What a side that writes to a faithful stream is answered. -/
def WritesOk : (o : Op) → Ans o → Prop
  | .write _, (r : Except Error Unit) => r = .ok ()
  | _, _ => True

/-- The reads of a side stand only at the listed counts of reads and writes made before. -/
def ReadsAt (turns : List (ℕ × ℕ)) (h : List HandshakeEvt) : Op → Prop
  | .read _ => (readCount h, (writes h).length) ∈ turns
  | _ => True

/-- The states two programs reach against each other: each side's history and what is left of it. A
step is one operation of one side, with an answer that it may get in that state. -/
inductive Joint (A B : (o : Op) → Ans o → Prop) (p : Handshake α) (q : Handshake β) :
    List HandshakeEvt → Handshake α → List HandshakeEvt → Handshake β → Prop where
  | init : Joint A B p q [] p [] q
  | left {h h' : List HandshakeEvt} {o : Op} {k : Ans o → Handshake α} {q' : Handshake β}
      (a : Ans o) (hJ : Joint A B p q h (.call o k) h' q') (ha : StreamAns A h h' q'.Ended o a) :
      Joint A B p q (h ++ [⟨o, a⟩]) (k a) h' q'
  | right {h h' : List HandshakeEvt} {o : Op} {k : Ans o → Handshake β} {p' : Handshake α}
      (a : Ans o) (hJ : Joint A B p q h p' h' (.call o k)) (ha : StreamAns B h' h p'.Ended o a) :
      Joint A B p q h p' (h' ++ [⟨o, a⟩]) (k a)

namespace Joint

variable {A B : (o : Op) → Ans o → Prop} {p p' : Handshake α} {q q' : Handshake β}
  {h h' : List HandshakeEvt}

/-- The two sides can be exchanged. -/
lemma swap (hJ : Joint A B p q h p' h' q') : Joint B A q p h' q' h p' := by
  induction hJ with
  | init => exact .init
  | left a _ ha ih => exact .right a ih ha
  | right a _ ha ih => exact .left a ih ha

/-- The first party of a joint run follows its own program. -/
lemma follows_left (hJ : Joint A B p q h p' h' q') : p.Follows h p' := by
  induction hJ with
  | init => exact .nil _
  | left a _ _ ih => exact ih.snoc a
  | right _ _ _ ih => exact ih

/-- So does the second one. -/
lemma follows_right (hJ : Joint A B p q h p' h' q') : q.Follows h' q' := hJ.swap.follows_left

/-- Every answer of the left side was one the stream could give at that moment: when the other
side had done `h₀'`, the beginning of what it has done now. If it had ended then, it has done
nothing since. -/
lemma answered_left (hJ : Joint A B p q h p' h' q') (h₁ h₂ : List HandshakeEvt) (e : HandshakeEvt)
    (hh : h = h₁ ++ e :: h₂) : ∃ h₀' : List HandshakeEvt, ∃ ended : Prop, h₀' <+: h' ∧
      (ended → h₀' = h' ∧ q'.Ended) ∧ StreamAns A h₁ h₀' ended e.1 e.2 := by
  induction hJ generalizing h₁ h₂ with
  | init => simp at hh
  | @left h h' o k q' a _ ha ih =>
    rcases List.eq_nil_or_concat h₂ with rfl | ⟨h₂, e', rfl⟩
    · obtain ⟨rfl, he⟩ := List.append_inj' hh rfl
      obtain rfl : ⟨o, a⟩ = e := by simpa using he
      exact ⟨h', q'.Ended, List.prefix_rfl, fun hc => ⟨rfl, hc⟩, ha⟩
    · rw [List.concat_eq_append, ← List.cons_append, ← List.append_assoc] at hh
      exact ih _ _ (List.append_inj' hh rfl).1
  | right a _ _ ih =>
    obtain ⟨h₀', ended, hpre, hended, hans⟩ := ih _ _ hh
    -- the other side still performs an operation, so it had not ended when we were answered
    exact ⟨h₀', ended, hpre.trans (List.prefix_append _ _), fun hc => (hended hc).2.elim, hans⟩

/-- A side's writes succeed. -/
lemma write_left (hJ : Joint A B p q h p' h' q') (h₁ h₂ : List HandshakeEvt) (frame : Frame)
    (a : Except Error Unit) (hh : h = h₁ ++ ⟨.write frame, a⟩ :: h₂) : a = .ok () := by
  obtain ⟨_, _, _, _, hans⟩ := hJ.answered_left _ _ _ hh
  exact hans

/-- **A read returns the frame at its place** in what the other side wrote.

**Proof sketch.** The joint run answers a read with the frame at its place, if it is there and fits.
What the other side has written since only comes behind it. -/
lemma read_left (hJ : Joint A B p q h p' h' q') (h₁ h₂ : List HandshakeEvt) (max : ℕ)
    (r : Except Error Frame) (frame : Frame) (hh : h = h₁ ++ ⟨.read max, r⟩ :: h₂)
    (hw : (writes h')[readCount h₁]? = some frame) (hsize : frame.size ≤ max) : r = .ok frame := by
  obtain ⟨h₀', ended, ⟨h₁', rfl⟩, hended, hans⟩ := hJ.answered_left _ _ _ hh
  simp only [StreamAns] at hans
  split at hans
  · rename_i f hf
    rw [writes_append, List.getElem?_append_left (List.getElem?_eq_some_iff.1 hf).1, hf] at hw
    obtain rfl := Option.some.inj hw
    rcases hans with ⟨-, hr⟩ | ⟨hlt, -⟩
    · exact hr
    · omega
  · rename_i hnone
    rw [← (hended hans.1).1, hnone] at hw
    simp at hw

/-- A read that returned a frame returned the one at its place. -/
lemma read_ok_left (hJ : Joint A B p q h p' h' q') (h₁ h₂ : List HandshakeEvt) {max : ℕ}
    {frame : Frame} (hh : h = h₁ ++ ⟨.read max, .ok frame⟩ :: h₂) :
    (writes h')[readCount h₁]? = some frame := by
  obtain ⟨h₀', ended, ⟨h₁', rfl⟩, -, hans⟩ := hJ.answered_left _ _ _ hh
  simp only [StreamAns] at hans
  split at hans
  · rename_i f hf
    rcases hans with ⟨-, hr⟩ | ⟨-, hr⟩
    · rw [writes_append, List.getElem?_append_left (List.getElem?_eq_some_iff.1 hf).1, hf]
      exact congrArg some (Except.ok.inj hr).symm
    · simp at hr
  · simp at hans

/-- Some answer is possible for an operation that is not a blocked read.

**Proof sketch.** By the operation. A write succeeds, and a read has a frame to get, or finds the
end of the stream. -/
lemma exists_answer (hA : ∀ o, ∃ a, A o a) (mine theirs : List HandshakeEvt) (ended : Prop)
    (o : Op) (ho : ∀ max, o = .read max → ended ∨ readCount mine < (writes theirs).length) :
    ∃ a, StreamAns A mine theirs ended o a := by
  rcases o with _ | frame | max | _ | m | K | K | _ | _ | _ | _
  case write => exact ⟨(.ok () : Except Error Unit), rfl⟩
  case read =>
    simp only [StreamAns]
    rcases hw : (writes theirs)[readCount mine]? with _ | frame
    · rcases ho max rfl with hend | hlt
      · exact ⟨_, hend, rfl⟩
      · rw [List.getElem?_eq_none_iff] at hw
        omega
    · rcases Nat.lt_or_ge max frame.size with hlt | hle
      · exact ⟨_, .inr ⟨hlt, rfl⟩⟩
      · exact ⟨_, .inl ⟨hle, rfl⟩⟩
  all_goals exact hA _

/-- If two sides that both wait for a frame never both wait in vain, some side that has not ended
can take a step.

**Proof sketch.** A side that waits for a frame can go on if there is one for it, or if the other
side has ended. If both wait, one of them has its frame by assumption. -/
theorem progress (hA : ∀ o, ∃ a, A o a) (hB : ∀ o, ∃ a, B o a)
    (fed : ∀ h h' max max' k k', Joint A B p q h (.call (.read max) k) h' (.call (.read max') k') →
      readCount h < (writes h').length ∨ readCount h' < (writes h).length)
    (hJ : Joint A B p q h p' h' q') : (p'.Ended ∧ q'.Ended) ∨
      (∃ o k a, p' = .call o k ∧ StreamAns A h h' q'.Ended o a) ∨
      ∃ o k a, q' = .call o k ∧ StreamAns B h' h p'.Ended o a := by
  have left : ∀ (o : Op) (k : Ans o → Handshake α), p' = .call o k →
      (∀ max, o = .read max → q'.Ended ∨ readCount h < (writes h').length) →
      ∃ o k a, p' = .call o k ∧ StreamAns A h h' q'.Ended o a := fun o k hp ho => by
    obtain ⟨a, ha⟩ := exists_answer hA h h' q'.Ended o ho
    exact ⟨o, k, a, hp, ha⟩
  have right : ∀ (o : Op) (k : Ans o → Handshake β), q' = .call o k →
      (∀ max, o = .read max → p'.Ended ∨ readCount h' < (writes h).length) →
      ∃ o k a, q' = .call o k ∧ StreamAns B h' h p'.Ended o a := fun o k hq ho => by
    obtain ⟨a, ha⟩ := exists_answer hB h' h p'.Ended o ho
    exact ⟨o, k, a, hq, ha⟩
  rcases hp : p' with a | e | ⟨o, k⟩ <;> rcases hq : q' with b | e' | ⟨o', k'⟩
  case call.call =>
    by_cases ho : ∃ max, o = .read max
    · by_cases ho' : ∃ max', o' = .read max'
      · obtain ⟨max, rfl⟩ := ho
        obtain ⟨max', rfl⟩ := ho'
        subst hp hq
        rcases fed h h' max max' k k' hJ with hlt | hlt
        · exact .inr (.inl (left _ k rfl fun _ _ => .inr hlt))
        · exact .inr (.inr (right _ k' rfl fun _ _ => .inr hlt))
      · subst hp hq
        exact .inr (.inr (right o' k' rfl fun max h => (ho' ⟨max, h⟩).elim))
    · subst hp hq
      exact .inr (.inl (left o k rfl fun max h => (ho ⟨max, h⟩).elim))
  all_goals subst hp hq
  case call.ret | call.fail => exact .inr (.inl (left o k rfl fun _ _ => .inl trivial))
  case ret.call | fail.call => exact .inr (.inr (right o' k' rfl fun _ _ => .inl trivial))
  all_goals exact .inl ⟨trivial, trivial⟩

/-- The two programs' writes so far have all succeeded. -/
lemma writes_ok (hJ : Joint A B p q h p' h' q') : ∀ e ∈ h, WritesOk e.1 e.2 := by
  intro e he
  obtain ⟨h₁, h₂, hh⟩ := List.append_of_mem he
  obtain ⟨o, a⟩ := e
  rcases o
  case write frame => exact hJ.write_left _ _ _ _ hh
  all_goals trivial

/-- **No deadlock, no endless run.** If in every joint state some side that has not ended can take
a step, every joint run can be continued until both sides have ended.

**Proof sketch.** By induction on the two programs, which are trees: a step of either side leaves a
subtree. Where neither side can take a step, both have ended. -/
theorem completes (progress : ∀ h p' h' q', Joint A B p q h p' h' q' →
      (p'.Ended ∧ q'.Ended) ∨
      (∃ o k a, p' = .call o k ∧ StreamAns A h h' q'.Ended o a) ∨
      ∃ o k a, q' = .call o k ∧ StreamAns B h' h p'.Ended o a)
    (hJ : Joint A B p q h p' h' q') :
    ∃ h₁ p₁ h₁' q₁, h <+: h₁ ∧ h' <+: h₁' ∧ Joint A B p q h₁ p₁ h₁' q₁ ∧ p₁.Ended ∧ q₁.Ended := by
  let Completes (p' : Handshake α) (q' : Handshake β) : Prop := ∀ h h', Joint A B p q h p' h' q' →
    ∃ h₁ p₁ h₁' q₁, h <+: h₁ ∧ h' <+: h₁' ∧ Joint A B p q h₁ p₁ h₁' q₁ ∧ p₁.Ended ∧ q₁.Ended
  have step : ∀ p' q', (∀ o k a, p' = .call o k → Completes (k a) q') →
      (∀ o k a, q' = .call o k → Completes p' (k a)) → Completes p' q' := by
    intro p' q' hl hr h h' hJ
    rcases progress h p' h' q' hJ with hend | ⟨o, k, a, rfl, ha⟩ | ⟨o, k, a, rfl, ha⟩
    · exact ⟨h, p', h', q', List.prefix_rfl, List.prefix_rfl, hJ, hend⟩
    · obtain ⟨h₁, p₁, h₁', q₁, hpre, hrest⟩ := hl o k a rfl _ _ (hJ.left a ha)
      exact ⟨h₁, p₁, h₁', q₁, (List.prefix_append _ _).trans hpre, hrest⟩
    · obtain ⟨h₁, p₁, h₁', q₁, hpre, hpre', hrest⟩ := hr o k a rfl _ _ (hJ.right a ha)
      exact ⟨h₁, p₁, h₁', q₁, hpre, (List.prefix_append _ _).trans hpre', hrest⟩
  -- a step of either side leaves a subtree of its program
  have main : ∀ p' q', Completes p' q' := by
    intro p'
    induction p' with
    | ret a =>
      intro q'
      induction q' with
      | ret b => exact step _ _ nofun nofun
      | fail e => exact step _ _ nofun nofun
      | call o k ih => exact step _ _ nofun fun o' k' a hq => by cases hq; exact ih a
    | fail e =>
      intro q'
      induction q' with
      | ret b => exact step _ _ nofun nofun
      | fail e => exact step _ _ nofun nofun
      | call o k ih => exact step _ _ nofun fun o' k' a hq => by cases hq; exact ih a
    | call o k ihp =>
      intro q'
      induction q' with
      | ret b => exact step _ _ (fun o' k' a hp => by cases hp; exact ihp a _) nofun
      | fail e => exact step _ _ (fun o' k' a hp => by cases hp; exact ihp a _) nofun
      | call o' k' ih =>
        exact step _ _ (fun _ _ a hp => by cases hp; exact ihp a _)
          fun _ _ a hq => by cases hq; exact ih a
  exact main p' q' h h' hJ

end Joint

end Duocb
