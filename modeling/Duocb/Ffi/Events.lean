import Mathlib.Data.List.Perm.Basic
import Duocb.Library.Machine
import Duocb.Basic

set_option relaxedAutoImplicit false
set_option autoImplicit false

/-!
# Draining events through the foreign-function interface

The runtime emits events into a queue, and the application drains them call by call, as JSON in a
buffer of its own. An event that does not fit is put into a slot, where the next call finds it.

A call looks at the slot, receives from the queue, and puts back, each under a lock of its own. So
calls of several threads interleave between these steps. If two calls put an event back one after
the other, the first of the two events is lost; and a call that looked at the slot before an event
was put back delivers a newer one. Calls that do not overlap do neither.

## Main definitions

* `Duocb.writeCstr` — whether a text fits into a buffer.
* `Duocb.EventQueue`, `Duocb.EventQueue.step` — the queue, the slot and the calls in progress.
* `Duocb.EventQueue.ExactlyOnce`, `Duocb.EventQueue.InOrder` — no event is lost or delivered twice,
  and events are delivered in the order in which they were emitted.
* `Duocb.EventQueue.SlotFree`, `Duocb.EventQueue.InTurn` — an event is put back into an empty slot,
  and no event is delivered while an older one is in a call or in the slot.
* `Duocb.EventQueue.Alone` — no call begins before the one before it has returned.

## Main results

* `Duocb.EventQueue.events_in_turn` — what these conditions are enough for.
* `Duocb.EventQueue.event_overwritten` — two calls that both put an event back lose one.
-/

namespace Duocb

/-! ## Buffers -/

/-- The last character boundary of a text up to a given byte. -/
def lastBoundary (s : String) : ℕ → ℕ
  | 0 => 0
  | n + 1 => if (⟨n + 1⟩ : String.Pos.Raw).IsValid s then n + 1 else lastBoundary s n

/-- Copy a text into a buffer of `len` bytes with a NUL at its end, cut at a character boundary if
need be: whether all of it fit. -/
def writeCstr (len : ℕ) (s : String) : Bool :=
  if len = 0 then false
  else lastBoundary s (min s.utf8ByteSize (len - 1)) = s.utf8ByteSize

/-- The last boundary is not beyond the limit. -/
lemma lastBoundary_le (s : String) (n : ℕ) : lastBoundary s n ≤ n := by
  induction n with
  | zero => exact Nat.le_refl _
  | succ n ih =>
    unfold lastBoundary
    split
    · exact Nat.le_refl _
    · exact Nat.le_succ_of_le ih

/-- The end of a text is a boundary. -/
lemma lastBoundary_end (s : String) : lastBoundary s s.utf8ByteSize = s.utf8ByteSize := by
  have hvalid : (⟨s.utf8ByteSize⟩ : String.Pos.Raw).IsValid s := String.Pos.Raw.isValid_rawEndPos
  generalize s.utf8ByteSize = n at hvalid
  cases n with
  | zero => rfl
  | succ n => rw [lastBoundary, if_pos hvalid]

/-- **A text fits if there is a byte left for the NUL.** -/
lemma writeCstr_iff {len : ℕ} {s : String} : writeCstr len s = true ↔ s.utf8ByteSize < len := by
  unfold writeCstr
  split
  · simp_all
  · rename_i hlen
    rw [decide_eq_true_eq]
    constructor
    · intro h
      have hle := lastBoundary_le s (min s.utf8ByteSize (len - 1))
      omega
    · intro h
      rw [Nat.min_eq_left (by omega), lastBoundary_end]

/-! ## The queue and its callers -/

/-- How far a call has come: it has found the slot empty, it holds an event, or it has returned a
code. -/
inductive Stage (α : Type) where
  | looking
  | holding (e : α × ℕ)
  | returned (code : Int)
  deriving DecidableEq

/-- A call, with the size of its buffer. -/
structure Call (α : Type) where
  outLen : ℕ
  stage : Stage α
  deriving DecidableEq

/-- The event that a call holds. -/
def Call.held {α : Type} (c : Call α) : Option (α × ℕ) :=
  match c.stage with
  | .holding e => some e
  | _ => none

/-- The events of a handle. Each event carries its place in the order of emission. The calls are all
that were ever made, and what was delivered is recorded with the call that delivered it. -/
structure EventQueue (α : Type) where
  emitted : List α
  queue : List (α × ℕ)
  pending : Option (α × ℕ)
  calls : List (Call α)
  delivered : List (ℕ × α × ℕ)
  deriving DecidableEq

namespace EventQueue

variable {α : Type}

/-- Nothing was emitted yet. -/
def empty : EventQueue α := ⟨[], [], none, [], []⟩

/-- The runtime emits an event; a thread calls and looks at the slot; a call that found it empty
receives from the queue; and a call that holds an event writes it or puts it back. -/
inductive Label (α : Type) where
  | emit (event : α)
  | call (outLen : ℕ)
  | receive (i : ℕ)
  | finish (i : ℕ)
  deriving DecidableEq

variable (json : α → String)

/-- One locked step. A call takes the slot, or else looks at the queue in a step of its own, since
the two are behind different locks. An event that does not fit goes back to the slot. -/
def step (s : EventQueue α) : Label α → Option (EventQueue α)
  | .emit event => some { s with
      emitted := s.emitted ++ [event], queue := s.queue ++ [(event, s.emitted.length)] }
  | .call outLen =>
    match s.pending with
    | some e => some { s with pending := none, calls := s.calls ++ [⟨outLen, .holding e⟩] }
    | none => some { s with calls := s.calls ++ [⟨outLen, .looking⟩] }
  | .receive i =>
    match s.calls[i]? with
    | some ⟨outLen, .looking⟩ =>
      match s.queue with
      | [] => some { s with calls := s.calls.set i ⟨outLen, .returned 0⟩ }
      | e :: rest => some { s with queue := rest, calls := s.calls.set i ⟨outLen, .holding e⟩ }
    | _ => none
  | .finish i =>
    match s.calls[i]? with
    | some ⟨outLen, .holding e⟩ =>
      if writeCstr outLen (json e.1) then
        some { s with
          calls := s.calls.set i ⟨outLen, .returned 1⟩, delivered := s.delivered ++ [(i, e)] }
      else some { s with pending := some e, calls := s.calls.set i ⟨outLen, .returned (-2)⟩ }
    | _ => none

/-- The events that calls in progress hold. -/
def held (s : EventQueue α) : List (α × ℕ) := s.calls.filterMap Call.held

/-- A call in progress holds an event. -/
def Holds (s : EventQueue α) (i : ℕ) (e : α × ℕ) : Prop :=
  ∃ outLen, s.calls[i]? = some ⟨outLen, .holding e⟩

/-- A call has not returned yet. -/
def InProgress (s : EventQueue α) (i : ℕ) : Prop :=
  ∃ c, s.calls[i]? = some c ∧ ∀ code, c.stage ≠ .returned code

/-- Every event that was emitted is, once, delivered, queued, put back, or held by a call in
progress, and every event that was delivered was delivered by one call, which returned 1. -/
structure ExactlyOnce (s : EventQueue α) : Prop where
  perm : (s.delivered.map Prod.snd ++ s.queue ++ s.pending.toList ++ s.held).Perm s.emitted.zipIdx
  success : ∀ d ∈ s.delivered, ∃ outLen, s.calls[d.1]? = some ⟨outLen, .returned 1⟩
  once : (s.delivered.map Prod.fst).Nodup

/-- Events are delivered in the order in which they were emitted. -/
def InOrder (s : EventQueue α) : Prop := s.delivered.Pairwise fun d d' => d.2.2 < d'.2.2

/-! ## Conditions on a step -/

/-- An event that does not fit is put back into an empty slot. -/
def SlotFree (s : EventQueue α) : Label α → Prop
  | .finish i => ∀ outLen e, s.calls[i]? = some ⟨outLen, .holding e⟩ →
      writeCstr outLen (json e.1) = false → s.pending = none
  | _ => True

/-- An event is delivered when no older one is in the slot or held by another call. -/
def InTurn (s : EventQueue α) : Label α → Prop
  | .finish i => ∀ outLen e, s.calls[i]? = some ⟨outLen, .holding e⟩ →
      writeCstr outLen (json e.1) = true → (∀ e' ∈ s.pending, e.2 < e'.2) ∧
        ∀ j e', j ≠ i → s.Holds j e' → e.2 < e'.2
  | _ => True

/-- A call begins when all calls before it have returned. -/
def Alone (s : EventQueue α) : Label α → Prop
  | .call _ => ∀ i, ¬ s.InProgress i
  | _ => True

/-! ## What a step does -/

/-- What one step does, case by case. It is the step function read as a relation, with what each
branch reads as premises. -/
inductive Stepped (s : EventQueue α) : Label α → EventQueue α → Prop where
  | emit (event : α) : Stepped s (.emit event) { s with
      emitted := s.emitted ++ [event], queue := s.queue ++ [(event, s.emitted.length)] }
  | again {outLen : ℕ} {e : α × ℕ} (slot : s.pending = some e) : Stepped s (.call outLen)
      { s with pending := none, calls := s.calls ++ [⟨outLen, .holding e⟩] }
  | look {outLen : ℕ} (slot : s.pending = none) : Stepped s (.call outLen)
      { s with calls := s.calls ++ [⟨outLen, .looking⟩] }
  | nothing {i outLen : ℕ} (now : s.calls[i]? = some ⟨outLen, .looking⟩) (queue : s.queue = []) :
      Stepped s (.receive i) { s with calls := s.calls.set i ⟨outLen, .returned 0⟩ }
  | receive {i outLen : ℕ} {e : α × ℕ} {rest : List (α × ℕ)}
      (now : s.calls[i]? = some ⟨outLen, .looking⟩) (queue : s.queue = e :: rest) :
      Stepped s (.receive i)
        { s with queue := rest, calls := s.calls.set i ⟨outLen, .holding e⟩ }
  | deliver {i outLen : ℕ} {e : α × ℕ} (now : s.calls[i]? = some ⟨outLen, .holding e⟩)
      (fits : writeCstr outLen (json e.1) = true) : Stepped s (.finish i) { s with
        calls := s.calls.set i ⟨outLen, .returned 1⟩, delivered := s.delivered ++ [(i, e)] }
  | retain {i outLen : ℕ} {e : α × ℕ} (now : s.calls[i]? = some ⟨outLen, .holding e⟩)
      (small : writeCstr outLen (json e.1) = false) : Stepped s (.finish i)
        { s with pending := some e, calls := s.calls.set i ⟨outLen, .returned (-2)⟩ }

variable {json} {s s' : EventQueue α} {l : Label α}

/-- These are all steps.

**Proof sketch.** By cases on the label, and on what stands in the slot and in the queue. -/
lemma stepped (h : step json s l = some s') : Stepped json s l s' := by
  cases l with
  | emit event =>
    cases h
    exact .emit event
  | call outLen =>
    simp only [step] at h
    split at h
    · rename_i e hslot
      cases h
      exact .again hslot
    · rename_i hslot
      cases h
      exact .look hslot
  | receive i =>
    simp only [step] at h
    split at h
    · rename_i outLen hat
      split at h
      · rename_i hqueue
        cases h
        exact .nothing hat hqueue
      · rename_i e rest hqueue
        cases h
        exact .receive hat hqueue
    · cases h
  | finish i =>
    simp only [step] at h
    split at h
    · rename_i outLen e hat
      split at h
      · rename_i hfits
        cases h
        exact .deliver hat hfits
      · rename_i hsmall
        cases h
        exact .retain hat (by simpa using hsmall)
    · cases h

/-! ## Exactly once -/

/-- Replacing a call exchanges what it holds.

**Proof sketch.** The calls are split at the one that is replaced, and the counts of the two parts
around it are the same on both sides. -/
lemma count_held_set [DecidableEq α] {calls : List (Call α)} {i : ℕ} {c : Call α}
    (h : calls[i]? = some c) (d : Call α) (x : α × ℕ) :
    ((calls.set i d).filterMap Call.held).count x + c.held.toList.count x =
      (calls.filterMap Call.held).count x + d.held.toList.count x := by
  obtain ⟨hi, rfl⟩ := List.getElem?_eq_some_iff.1 h
  have hsingle : ∀ c : Call α, [c].filterMap Call.held = c.held.toList := fun c => by
    cases h : c.held <;> simp [h]
  have hsplit : calls = calls.take i ++ ([calls[i]] ++ calls.drop (i + 1)) := by
    rw [List.singleton_append, List.getElem_cons_drop, List.take_append_drop]
  have hset : calls.set i d = calls.take i ++ ([d] ++ calls.drop (i + 1)) := by
    rw [List.set_eq_take_append_cons_drop, if_pos hi, List.singleton_append]
  conv_rhs => rw [hsplit]
  rw [hset]
  simp only [List.filterMap_append, hsingle, List.count_append]
  omega

/-- A call that returned stays so when another call changes, -/
lemma returned_set {calls : List (Call α)} {i j : ℕ} {c d : Call α} (hc : calls[j]? = some c)
    (hij : i ≠ j) : (calls.set i d)[j]? = some c := by
  rw [List.getElem?_set_ne hij, hc]

/-- and when another call begins. -/
lemma returned_append {calls : List (Call α)} {j : ℕ} {c d : Call α} (hc : calls[j]? = some c) :
    (calls ++ [d])[j]? = some c := by
  rw [List.getElem?_append_left (List.getElem?_eq_some_iff.1 hc).1, hc]

/-- A call in progress has delivered nothing. -/
lemma ExactlyOnce.ne_of_mem (hs : s.ExactlyOnce) {i outLen : ℕ} {stage : Stage α}
    (hi : s.calls[i]? = some ⟨outLen, stage⟩) (hstage : ∀ code, stage ≠ .returned code)
    {d : ℕ × α × ℕ} (hd : d ∈ s.delivered) : i ≠ d.1 := by
  rintro rfl
  obtain ⟨outLen', hreturned⟩ := hs.success d hd
  rw [hi] at hreturned
  exact hstage 1 (Call.mk.inj (Option.some.inj hreturned)).2

/-- **One step keeps every event exactly once**, if an event is put back into an empty slot.

**Proof sketch.** An event moves from one place to another, so the places together hold the same
events. Where it is put into the slot, the slot is empty by assumption, so nothing is lost. -/
lemma ExactlyOnce.step (hs : s.ExactlyOnce) (hslot : SlotFree json s l)
    (h : step json s l = some s') : s'.ExactlyOnce := by
  classical
  have hcount := List.perm_iff_count.1 hs.perm
  cases stepped h with
  | emit event =>
    refine ⟨List.perm_iff_count.2 fun x => ?_, hs.success, hs.once⟩
    have hx := hcount x
    simp only [held, List.zipIdx_append, List.zipIdx_singleton, List.count_append, Nat.zero_add]
      at hx ⊢
    omega
  | @again outLen e slot =>
    refine ⟨List.perm_iff_count.2 fun x => ?_, fun d hd => ?_, hs.once⟩
    · have hx := hcount x
      have hlast : [(⟨outLen, .holding e⟩ : Call α)].filterMap Call.held = [e] := rfl
      simp only [held, slot, List.filterMap_append, hlast, List.count_append, Option.toList_some,
        Option.toList_none, List.count_nil] at hx ⊢
      omega
    · obtain ⟨outLen', hd⟩ := hs.success d hd
      exact ⟨outLen', returned_append hd⟩
  | @look outLen slot =>
    refine ⟨List.perm_iff_count.2 fun x => ?_, fun d hd => ?_, hs.once⟩
    · have hx := hcount x
      have hlast : [(⟨outLen, .looking⟩ : Call α)].filterMap Call.held = [] := rfl
      simp only [held, List.filterMap_append, hlast, List.count_append, List.count_nil] at hx ⊢
      omega
    · obtain ⟨outLen', hd⟩ := hs.success d hd
      exact ⟨outLen', returned_append hd⟩
  | @nothing i outLen hat queue =>
    refine ⟨List.perm_iff_count.2 fun x => ?_, fun d hd => ?_, hs.once⟩
    · have hx := hcount x
      have hset := count_held_set hat ⟨outLen, .returned 0⟩ x
      simp only [held, Call.held, List.count_append, Option.toList_none,
        List.count_nil] at hx hset ⊢
      omega
    · obtain ⟨outLen', hreturned⟩ := hs.success d hd
      exact ⟨outLen', returned_set hreturned (hs.ne_of_mem hat (by simp) hd)⟩
  | @receive i outLen e rest hat queue =>
    refine ⟨List.perm_iff_count.2 fun x => ?_, fun d hd => ?_, hs.once⟩
    · have hx := hcount x
      have hset := count_held_set hat ⟨outLen, .holding e⟩ x
      simp only [held, Call.held, queue, List.count_append, List.count_cons, Option.toList_none,
        Option.toList_some, List.count_nil] at hx hset ⊢
      omega
    · obtain ⟨outLen', hreturned⟩ := hs.success d hd
      exact ⟨outLen', returned_set hreturned (hs.ne_of_mem hat (by simp) hd)⟩
  | @deliver i outLen e hat fits =>
    refine ⟨List.perm_iff_count.2 fun x => ?_, fun d hd => ?_, ?_⟩
    · have hx := hcount x
      have hset := count_held_set hat ⟨outLen, .returned 1⟩ x
      simp only [held, Call.held, List.map_append, List.map_cons, List.map_nil, List.count_append,
        Option.toList_none, Option.toList_some, List.count_nil] at hx hset ⊢
      omega
    · rcases List.mem_append.1 hd with hd | hd
      · obtain ⟨outLen', hreturned⟩ := hs.success d hd
        exact ⟨outLen', returned_set hreturned (hs.ne_of_mem hat (by simp) hd)⟩
      · obtain rfl := List.mem_singleton.1 hd
        exact ⟨outLen, by rw [List.getElem?_set_self (List.getElem?_eq_some_iff.1 hat).1]⟩
    · rw [List.map_append, List.nodup_append]
      refine ⟨hs.once, by simp, fun j hj k hk => ?_⟩
      obtain ⟨d, hd, rfl⟩ := List.mem_map.1 hj
      obtain rfl : k = i := by simpa using hk
      exact (hs.ne_of_mem hat (by simp) hd).symm
  | @retain i outLen e hat small =>
    refine ⟨List.perm_iff_count.2 fun x => ?_, fun d hd => ?_, hs.once⟩
    · have hx := hcount x
      have hset := count_held_set hat ⟨outLen, .returned (-2)⟩ x
      have hempty := hslot outLen e hat small
      simp only [held, Call.held, hempty, List.count_append, Option.toList_none, Option.toList_some,
        List.count_nil] at hx hset ⊢
      omega
    · obtain ⟨outLen', hreturned⟩ := hs.success d hd
      exact ⟨outLen', returned_set hreturned (hs.ne_of_mem hat (by simp) hd)⟩

/-- Nothing is lost before anything happens. -/
lemma exactlyOnce_empty : (empty : EventQueue α).ExactlyOnce :=
  ⟨.refl _, by simp [empty], by simp [empty]⟩

/-! ## In order -/

/-- An event was taken from the queue and is not delivered yet. -/
def Taken (s : EventQueue α) (e : α × ℕ) : Prop := s.pending = some e ∨ ∃ i, s.Holds i e

/-- What keeps the order: events are taken in order, and what was delivered is older than everything
that is outstanding. -/
structure Ordered (s : EventQueue α) : Prop where
  delivered : s.InOrder
  queue : s.queue.Pairwise fun e e' => e.2 < e'.2
  emitted : ∀ e, e ∈ s.queue ∨ s.Taken e ∨ e ∈ s.delivered.map Prod.snd → e.2 < s.emitted.length
  ahead : ∀ e, s.Taken e → ∀ e' ∈ s.queue, e.2 < e'.2
  older : ∀ d ∈ s.delivered, ∀ e, e ∈ s.queue ∨ s.Taken e → d.2.2 < e.2

/-- What a call holds after a call has changed. -/
lemma holds_set {i outLen : ℕ} {stage : Stage α} (hs' : s'.calls =
    s.calls.set i ⟨outLen, stage⟩) {j : ℕ} {e : α × ℕ} (h : s'.Holds j e) :
    (j = i ∧ stage = .holding e) ∨ (j ≠ i ∧ s.Holds j e) := by
  obtain ⟨outLen', hj⟩ := h
  rw [hs', List.getElem?_set] at hj
  split_ifs at hj with hij hlt
  · exact .inl ⟨hij.symm, (Call.mk.inj (Option.some.inj hj)).2⟩
  · exact .inr ⟨fun h => hij h.symm, outLen', hj⟩

/-- What a call holds after a call has begun. -/
lemma holds_append {outLen : ℕ} {stage : Stage α} (hs' : s'.calls = s.calls ++ [⟨outLen, stage⟩])
    {j : ℕ} {e : α × ℕ} (h : s'.Holds j e) : stage = .holding e ∨ s.Holds j e := by
  obtain ⟨outLen', hj⟩ := h
  rw [hs', List.getElem?_append] at hj
  split_ifs at hj with hlt
  · exact .inr ⟨outLen', hj⟩
  · rw [List.getElem?_singleton] at hj
    split_ifs at hj
    exact .inl (Call.mk.inj (Option.some.inj hj)).2

/-- A step that only changes what is taken keeps the order if it takes nothing new.

**Proof sketch.** The queue and what was delivered are unchanged, and what is taken was so before.
-/
lemma Ordered.of_taken (hs : s.Ordered) (hemitted : s'.emitted = s.emitted)
    (hqueue : s'.queue = s.queue) (hdelivered : s'.delivered = s.delivered)
    (htaken : ∀ e, s'.Taken e → s.Taken e) : s'.Ordered := by
  refine ⟨?_, ?_, fun e he => ?_, fun e he e' he' => ?_, fun d hd e he => ?_⟩
  · unfold InOrder
    rw [hdelivered]
    exact hs.delivered
  · rw [hqueue]
    exact hs.queue
  · rw [hqueue, hdelivered] at he
    rw [hemitted]
    exact hs.emitted e (he.imp_right (Or.imp_left (htaken e)))
  · rw [hqueue] at he'
    exact hs.ahead e (htaken e he) e' he'
  · rw [hdelivered] at hd
    rw [hqueue] at he
    exact hs.older d hd e (he.imp_right (htaken e))

/-- **One step keeps the order**, if events are delivered in turn.

**Proof sketch.** An event that is taken is the first one that is held, and everything delivered
before it was emitted before it. -/
lemma Ordered.step (hs : s.Ordered) (hturn : InTurn json s l) (h : step json s l = some s') :
    s'.Ordered := by
  cases stepped h with
  | emit event =>
    refine ⟨hs.delivered, ?_, fun e he => ?_, fun e he e' he' => ?_, fun d hd e he => ?_⟩
    · refine List.pairwise_append.2 ⟨hs.queue, List.pairwise_singleton _ _, fun e he e' he' => ?_⟩
      obtain rfl := List.mem_singleton.1 he'
      exact hs.emitted e (.inl he)
    · rw [List.length_append, List.length_singleton]
      rcases he with he | he
      · rcases List.mem_append.1 he with he | he
        · exact Nat.lt_succ_of_lt (hs.emitted e (.inl he))
        · obtain rfl := List.mem_singleton.1 he
          exact Nat.lt_succ_self _
      · exact Nat.lt_succ_of_lt (hs.emitted e (.inr he))
    · rcases List.mem_append.1 he' with he' | he'
      · exact hs.ahead e he e' he'
      · obtain rfl := List.mem_singleton.1 he'
        exact hs.emitted e (.inr (.inl he))
    · rcases he with he | he
      · rcases List.mem_append.1 he with he | he
        · exact hs.older d hd e (.inl he)
        · obtain rfl := List.mem_singleton.1 he
          exact hs.emitted d.2 (.inr (.inr (List.mem_map_of_mem hd)))
      · exact hs.older d hd e (.inr he)
  | @again outLen e slot =>
    refine hs.of_taken rfl rfl rfl fun e' he' => ?_
    rcases he' with he' | ⟨j, he'⟩
    · cases he'
    · rcases holds_append rfl he' with heq | he'
      · cases heq
        exact .inl slot
      · exact .inr ⟨j, he'⟩
  | @look outLen slot =>
    refine hs.of_taken rfl rfl rfl fun e' he' => ?_
    rcases he' with he' | ⟨j, he'⟩
    · exact .inl he'
    · rcases holds_append rfl he' with heq | he'
      · cases heq
      · exact .inr ⟨j, he'⟩
  | @nothing i outLen hat queue =>
    refine hs.of_taken rfl rfl rfl fun e' he' => ?_
    rcases he' with he' | ⟨j, he'⟩
    · exact .inl he'
    · rcases holds_set rfl he' with ⟨-, heq⟩ | ⟨-, he'⟩
      · cases heq
      · exact .inr ⟨j, he'⟩
  | @receive i outLen e rest hat queue =>
    have hqueue := hs.queue
    rw [queue, List.pairwise_cons] at hqueue
    have hhead : e ∈ s.queue := by
      rw [queue]
      exact List.mem_cons_self
    have htail : ∀ e' ∈ rest, e' ∈ s.queue := fun e' he' => by
      rw [queue]
      exact List.mem_cons_of_mem _ he'
    -- the head of the queue is taken, and nothing else
    have htaken : ∀ e', EventQueue.Taken { s with
        queue := rest, calls := s.calls.set i ⟨outLen, .holding e⟩ } e' → e' = e ∨ s.Taken e' := by
      rintro e' (he' | ⟨j, he'⟩)
      · exact .inr (.inl he')
      · rcases holds_set rfl he' with ⟨-, heq⟩ | ⟨-, he'⟩
        · cases heq
          exact .inl rfl
        · exact .inr (.inr ⟨j, he'⟩)
    refine ⟨hs.delivered, hqueue.2, fun e' he' => ?_, fun e' he' e'' he'' => ?_,
      fun d hd e' he' => ?_⟩
    · rcases he' with he' | he' | he'
      · exact hs.emitted e' (.inl (htail e' he'))
      · rcases htaken e' he' with rfl | he'
        · exact hs.emitted e' (.inl hhead)
        · exact hs.emitted e' (.inr (.inl he'))
      · exact hs.emitted e' (.inr (.inr he'))
    · rcases htaken e' he' with rfl | he'
      · exact hqueue.1 e'' he''
      · exact hs.ahead e' he' e'' (htail e'' he'')
    · rcases he' with he' | he'
      · exact hs.older d hd e' (.inl (htail e' he'))
      · rcases htaken e' he' with rfl | he'
        · exact hs.older d hd e' (.inl hhead)
        · exact hs.older d hd e' (.inr he')
  | @deliver i outLen e hat fits =>
    obtain ⟨hslot, hothers⟩ := hturn outLen e hat fits
    have he : s.Taken e := .inr ⟨i, outLen, hat⟩
    -- what is still taken is newer than what is delivered now
    have htaken : ∀ e', EventQueue.Taken { s with
        calls := s.calls.set i ⟨outLen, .returned 1⟩, delivered := s.delivered ++ [(i, e)] } e' →
          s.Taken e' ∧ e.2 < e'.2 := by
      rintro e' (he' | ⟨j, he'⟩)
      · exact ⟨.inl he', hslot e' he'⟩
      · rcases holds_set rfl he' with ⟨-, heq⟩ | ⟨hne, he'⟩
        · cases heq
        · exact ⟨.inr ⟨j, he'⟩, hothers j e' hne he'⟩
    refine ⟨?_, hs.queue, fun e' he' => ?_, fun e' he' => hs.ahead e' (htaken e' he').1,
      fun d hd e' he' => ?_⟩
    · refine List.pairwise_append.2 ⟨hs.delivered, List.pairwise_singleton _ _,
        fun d hd d' hd' => ?_⟩
      obtain rfl := List.mem_singleton.1 hd'
      exact hs.older d hd e (.inr he)
    · rcases he' with he' | he' | he'
      · exact hs.emitted e' (.inl he')
      · exact hs.emitted e' (.inr (.inl (htaken e' he').1))
      · rw [List.map_append, List.mem_append] at he'
        rcases he' with he' | he'
        · exact hs.emitted e' (.inr (.inr he'))
        · obtain rfl : e' = e := by simpa using he'
          exact hs.emitted e' (.inr (.inl he))
    · rcases List.mem_append.1 hd with hd | hd
      · exact hs.older d hd e' (he'.imp_right fun h => (htaken e' h).1)
      · obtain rfl := List.mem_singleton.1 hd
        rcases he' with he' | he'
        · exact hs.ahead e he e' he'
        · exact (htaken e' he').2
  | @retain i outLen e hat small =>
    refine hs.of_taken rfl rfl rfl fun e' he' => ?_
    rcases he' with he' | ⟨j, he'⟩
    · obtain rfl := Option.some.inj he'
      exact .inr ⟨i, outLen, hat⟩
    · rcases holds_set rfl he' with ⟨-, heq⟩ | ⟨-, he'⟩
      · cases heq
      · exact .inr ⟨j, he'⟩

/-- Nothing is out of order before anything happens. -/
lemma ordered_empty : (empty : EventQueue α).Ordered := by
  have hnone : ∀ e, ¬ (empty : EventQueue α).Taken e := by
    rintro e (h | ⟨i, outLen, h⟩)
    · cases h
    · simp [empty] at h
  refine ⟨.nil, .nil, ?_, fun e he => absurd he (hnone e), by simp [empty]⟩
  rintro e (h | h | h)
  · simp [empty] at h
  · exact absurd h (hnone e)
  · simp [empty] at h

/-! ## One call at a time -/

/-- At most one call is in progress, and while there is one the slot is empty. -/
def Single (s : EventQueue α) : Prop :=
  (∀ i j, s.InProgress i → s.InProgress j → i = j) ∧ ∀ i, s.InProgress i → s.pending = none

/-- A call that holds an event is in progress. -/
lemma Holds.inProgress {i : ℕ} {e : α × ℕ} (h : s.Holds i e) : s.InProgress i := by
  obtain ⟨outLen, hi⟩ := h
  exact ⟨_, hi, by simp⟩

/-- Which calls are in progress after a call has changed. -/
lemma inProgress_set {i outLen : ℕ} {stage : Stage α} (hs' : s'.calls =
    s.calls.set i ⟨outLen, stage⟩) {j : ℕ} (h : s'.InProgress j) :
    (j = i ∧ ∀ code, stage ≠ .returned code) ∨ (j ≠ i ∧ s.InProgress j) := by
  obtain ⟨c, hj, hstage⟩ := h
  rw [hs', List.getElem?_set] at hj
  split_ifs at hj with hij hlt
  · obtain rfl := Option.some.inj hj
    exact .inl ⟨hij.symm, hstage⟩
  · exact .inr ⟨fun h => hij h.symm, c, hj, hstage⟩

/-- Which calls are in progress after a call has begun. -/
lemma inProgress_append {c : Call α} (hs' : s'.calls = s.calls ++ [c]) {j : ℕ}
    (h : s'.InProgress j) : j = s.calls.length ∨ s.InProgress j := by
  obtain ⟨c', hj, hstage⟩ := h
  rw [hs', List.getElem?_append] at hj
  split_ifs at hj with hlt
  · exact .inr ⟨c', hj, hstage⟩
  · rw [List.getElem?_singleton] at hj
    split_ifs at hj with hzero
    exact .inl (by omega)

/-- A call that begins alone is the only one. -/
lemma Single.begin {c : Call α} (hs' : s'.calls = s.calls ++ [c]) (halone : ∀ i, ¬ s.InProgress i)
    (hslot : s'.pending = none) : s'.Single := by
  have honly : ∀ i, s'.InProgress i → i = s.calls.length := fun i hi =>
    (inProgress_append hs' hi).resolve_right (halone i)
  exact ⟨fun i j hi hj => (honly i hi).trans (honly j hj).symm, fun _ _ => hslot⟩

/-- A call that goes on leaves no other one in progress. -/
lemma Single.go_on (hs : s.Single) {i outLen : ℕ} {stage : Stage α} (hi : s.InProgress i)
    (hs' : s'.calls = s.calls.set i ⟨outLen, stage⟩)
    (hslot : (∀ code, stage ≠ .returned code) → s'.pending = none) : s'.Single := by
  have honly : ∀ j, s'.InProgress j → j = i ∧ ∀ code, stage ≠ .returned code := fun j hj =>
    (inProgress_set hs' hj).resolve_right fun h => h.1 (hs.1 j i h.2 hi)
  exact ⟨fun j k hj hk => (honly j hj).1.trans (honly k hk).1.symm,
    fun j hj => hslot (honly j hj).2⟩

/-- **One step keeps at most one call in progress**, if calls begin alone. -/
lemma Single.step (hs : s.Single) (halone : s.Alone l) (h : step json s l = some s') :
    s'.Single := by
  cases stepped h with
  | emit event => exact hs
  | again slot => exact Single.begin rfl halone rfl
  | look slot => exact Single.begin rfl halone slot
  | nothing hat queue => exact hs.go_on ⟨_, hat, by simp⟩ rfl fun h => absurd rfl (h 0)
  | receive hat queue =>
    have hi : s.InProgress _ := ⟨_, hat, by simp⟩
    exact hs.go_on hi rfl fun _ => hs.2 _ hi
  | deliver hat fits => exact hs.go_on ⟨_, hat, by simp⟩ rfl fun h => absurd rfl (h 1)
  | retain hat small => exact hs.go_on ⟨_, hat, by simp⟩ rfl fun h => absurd rfl (h (-2))

/-- A single call finds the slot empty, and delivers in turn. -/
lemma Single.careful (hs : s.Single) : SlotFree json s l ∧ InTurn json s l := by
  cases l with
  | finish i =>
    refine ⟨fun outLen e hat _ => hs.2 i (Holds.inProgress ⟨outLen, hat⟩), fun outLen e hat _ => ?_⟩
    have hi : s.InProgress i := Holds.inProgress ⟨outLen, hat⟩
    refine ⟨fun e' he' => ?_, fun j e' hne he' => absurd (hs.1 j i he'.inProgress hi) hne⟩
    rw [hs.2 i hi] at he'
    cases he'
  | emit event => exact ⟨trivial, trivial⟩
  | call outLen => exact ⟨trivial, trivial⟩
  | receive i => exact ⟨trivial, trivial⟩

/-! ## Whole runs -/

/-- **Events are delivered exactly once and in order, under two conditions.** In every run in which
an event is only put back into an empty slot, every event that was emitted is, once, delivered,
queued, put back or held. In every run in which no event is delivered while an older one is in the
slot or held by another call, the events are delivered in the order in which they were emitted. Both
hold in every run in which no two calls overlap.

**Proof sketch.** Each condition is about a step, and makes the step keep the invariant that it is
for; the rule for runs does the rest. A call that is alone meets both conditions, since nobody else
can fill the slot while it is in progress. -/
theorem events_in_turn (json : α → String) {ls : List (Label α)} {s : EventQueue α}
    (hrun : Machine.exec (step json) empty ls = some s) :
    (Machine.Meets (step json) (SlotFree json) empty ls → s.ExactlyOnce) ∧
    (Machine.Meets (step json) (InTurn json) empty ls → s.InOrder) ∧
    (Machine.Meets (step json) Alone empty ls → s.ExactlyOnce ∧ s.InOrder) := by
  refine ⟨fun h => ?_, fun h => ?_, fun h => ?_⟩
  · exact Machine.exec_invariant (fun _ _ _ hs hslot hstep => hs.step hslot hstep)
      exactlyOnce_empty h hrun
  · exact (Machine.exec_invariant (fun _ _ _ hs hturn hstep => Ordered.step hs hturn hstep)
      ordered_empty h hrun).delivered
  · have hstart : (empty : EventQueue α).Single := by
      have hnone : ∀ i, ¬ (empty : EventQueue α).InProgress i := by
        rintro i ⟨c, hi, -⟩
        simp [empty] at hi
      exact ⟨fun i _ hi => absurd hi (hnone i), fun i hi => absurd hi (hnone i)⟩
    have hall := Machine.exec_invariant (I := fun s : EventQueue α =>
      s.Single ∧ s.ExactlyOnce ∧ s.Ordered) (fun s l s' hs halone hstep =>
        ⟨hs.1.step halone hstep, hs.2.1.step hs.1.careful.1 hstep,
          hs.2.2.step hs.1.careful.2 hstep⟩) ⟨hstart, exactlyOnce_empty, ordered_empty⟩ h hrun
    exact ⟨hall.2.1, hall.2.2.delivered⟩

section Sample

/-- Two events, as their texts. -/
def sampleEvents : List (Label String) := [.emit "\x7b\"a\":1\x7d", .emit "\x7b\"b\":2\x7d"]

/-- A call with a small buffer puts the first event back, and two larger ones deliver both. -/
def retried : List (Label String) :=
  sampleEvents ++ [.call 4, .receive 0, .finish 0, .call 64, .finish 1, .call 64, .receive 2,
    .finish 2]

/-- Two calls with small buffers take both events, and then put both back. -/
def overlapping : List (Label String) :=
  sampleEvents ++ [.call 4, .call 4, .receive 0, .receive 1, .finish 0, .finish 1]

/-- A call with a small buffer takes the first event, and puts it back when another call has
delivered the second one. -/
def overtaken : List (Label String) :=
  sampleEvents ++ [.call 4, .receive 0, .call 64, .receive 1, .finish 1, .finish 0, .call 64,
    .finish 2]

/-- Whether a call begins when all calls have returned. -/
def begins (s : EventQueue String) : Label String → Bool
  | .call _ => s.calls.all fun c => match c.stage with
    | .returned _ => true
    | _ => false
  | _ => true

/-- A step that is found to begin or to be alone is alone. -/
lemma alone_of_begins (s : EventQueue String) (l : Label String) (h : begins s l = true) :
    s.Alone l := by
  cases l with
  | call outLen =>
    rintro i ⟨⟨outLen', stage⟩, hi, hstage⟩
    have hc := List.all_eq_true.1 h _ (List.mem_of_getElem? hi)
    cases stage with
    | looking => cases hc
    | holding e => cases hc
    | returned code => exact hstage code rfl
  | emit event => trivial
  | receive i => trivial
  | finish i => trivial

/-- A call that is retried with a larger buffer gets its event. -/
theorem events_in_turn_sample : ∃ s, Machine.exec (step id) empty retried = some s ∧
    s.ExactlyOnce ∧ s.InOrder ∧ s.delivered.length = 2 := by
  obtain ⟨s, hs⟩ : ∃ s, Machine.exec (step id) empty retried = some s :=
    Option.isSome_iff_exists.1 (by decide +kernel)
  have hlen :
      (Machine.exec (step id) empty retried).map (fun s => s.delivered.length) = some 2 := by
    decide +kernel
  rw [hs] at hlen
  obtain ⟨honce, horder⟩ := (events_in_turn id hs).2.2
    (Machine.meets_of_check alone_of_begins (by decide +kernel))
  exact ⟨s, hs, honce, horder, Option.some.inj hlen⟩

/-- What is left after two calls that both put an event back. -/
def overwritten : EventQueue String :=
  ⟨["\x7b\"a\":1\x7d", "\x7b\"b\":2\x7d"], [], some ("\x7b\"b\":2\x7d", 1),
    [⟨4, .returned (-2)⟩, ⟨4, .returned (-2)⟩], []⟩

/-- What was delivered around an event that was put back late. -/
def reordered : EventQueue String :=
  ⟨["\x7b\"a\":1\x7d", "\x7b\"b\":2\x7d"], [], none,
    [⟨4, .returned (-2)⟩, ⟨64, .returned 1⟩, ⟨64, .returned 1⟩],
    [(1, "\x7b\"b\":2\x7d", 1), (2, "\x7b\"a\":1\x7d", 0)]⟩

/-- **Two calls that both put an event back lose one**: the first event is nowhere. And a call that
takes an event and puts it back lets a newer one be delivered before it.

**Proof sketch.** Both runs are evaluated. In the first one an event is neither delivered nor held,
and in the second one the first delivery is newer than the second. -/
theorem event_overwritten :
    (Machine.exec (step id) empty overlapping = some overwritten ∧ ¬ overwritten.ExactlyOnce) ∧
    Machine.exec (step id) empty overtaken = some reordered ∧ ¬ reordered.InOrder := by
  refine ⟨⟨by decide +kernel, fun h => ?_⟩, by decide +kernel, fun h => ?_⟩
  · have hlen := h.perm.length_eq
    revert hlen
    decide +kernel
  · have hfirst := (List.pairwise_cons.1 h).1 _ List.mem_cons_self
    revert hfirst
    decide +kernel

end Sample

end EventQueue

end Duocb
