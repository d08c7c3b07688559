import Duocb.Library.Machine

set_option relaxedAutoImplicit false
set_option autoImplicit false

/-!
# A loop that is woken up

Any number of senders put events on a queue, and each of them wakes a consumer afterwards. The
consumer waits for a permit: waking it leaves one, and however often it was woken there is at most
one. It takes events until it finds the queue empty, applies them one after the other, and shows its
state, if there were any. While it waits, its state is also acted on from elsewhere.

Between putting an event and waking, and between finding the queue empty and waiting again, anything
may happen. No event is missed all the same.

## Main definitions

* `Wakeup`, `Wakeup.step` — the queue, the permit and the consumer, and one step of any party.
* `Wakeup.Alert` — what is on the queue will be found.
* `Wakeup.Quiet` — nothing is under way.
* `Wakeup.work` — how many steps can still be taken before the next event is sent.

## Main results

* `Wakeup.applied` — events are applied once each and in the order in which they were sent.
* `Wakeup.quiet_done` — when nothing is under way, every event was applied and the state is shown.
* `Wakeup.exists_step` — as long as something is under way, it can go on.
* `Wakeup.work_step` — and it comes to an end.
-/

namespace Wakeup

/-- Where the consumer is. It waits for a permit, empties the queue, and applies what it has got
before it waits again. -/
inductive Phase (ε : Type*) where
  | waiting
  /-- It takes events off the queue. -/
  | collecting (got : List ε)
  /-- It has found the queue empty, and applies what it got. -/
  | applying (left : List ε) (any : Bool)

/-- The events that the consumer holds. -/
def Phase.batch {ε : Type*} : Phase ε → List ε
  | waiting => []
  | collecting got => got
  | applying left _ => left

end Wakeup

/-- A queue with its permit and its consumer, and how many senders have put an event and not woken
the consumer yet. -/
structure Wakeup (ε σ : Type*) where
  queue : List ε
  waking : ℕ
  permit : Bool
  phase : Wakeup.Phase ε
  state : σ
  shown : σ

namespace Wakeup

/-- What moves a loop: an event is put, the consumer is woken, it goes on, or something else acts on
its state. An event is applied with an input of its own. -/
inductive Label (ε ξ υ : Type*) where
  | put (e : ε)
  | wake
  | rouse
  | take
  | apply (x : ξ)
  | act (u : υ)

/-- The event that a label puts. -/
def Label.put? {ε ξ υ : Type*} : Label ε ξ υ → Option ε
  | put e => some e
  | _ => none

/-- Whether a label goes on with what is under way. -/
def Label.inner {ε ξ υ : Type*} : Label ε ξ υ → Bool
  | put _ | act _ => false
  | _ => true

section Step

variable {ε σ ξ υ : Type*} (f : σ → ξ → ε → σ) (g : σ → υ → Option σ)

/-- Nothing was sent yet. -/
def start (state : σ) : Wakeup ε σ := ⟨[], 0, false, .waiting, state, state⟩

/-- One step of a loop, and the event it applies. A producer puts an event and then wakes the
consumer; the two are steps of their own. Something else may act on the state while the consumer
waits. -/
def step (s : Wakeup ε σ) : Label ε ξ υ → Option (Wakeup ε σ × List ε)
  | .put e => some ({ s with queue := s.queue ++ [e], waking := s.waking + 1 }, [])
  | .wake =>
    match s.waking with
    | 0 => none
    | n + 1 => some ({ s with waking := n, permit := true }, [])
  | .rouse =>
    match s.phase with
    | .waiting =>
      if s.permit then some ({ s with permit := false, phase := .collecting [] }, []) else none
    | _ => none
  | .take =>
    match s.phase, s.queue with
    | .collecting got, e :: rest =>
      some ({ s with queue := rest, phase := .collecting (got ++ [e]) }, [])
    | .collecting got, [] => some ({ s with phase := .applying got !got.isEmpty }, [])
    | _, _ => none
  | .apply x =>
    match s.phase with
    | .applying (e :: left) any =>
      some ({ s with state := f s.state x e, phase := .applying left any }, [e])
    | .applying [] any =>
      some ({ s with phase := .waiting, shown := if any then s.state else s.shown }, [])
    | _ => none
  | .act u =>
    match s.phase with
    | .waiting => (g s.state u).map fun state => ({ s with state := state, shown := state }, [])
    | _ => none

/-- **Everything a step can do.** It is the step function read as a relation, with what each branch
reads as premises. -/
inductive Stepped (s : Wakeup ε σ) : Label ε ξ υ → Wakeup ε σ → List ε → Prop
  | put (e : ε) :
      Stepped s (.put e) { s with queue := s.queue ++ [e], waking := s.waking + 1 } []
  | wake (n : ℕ) (waking : s.waking = n + 1) :
      Stepped s .wake { s with waking := n, permit := true } []
  | rouse (phase : s.phase = .waiting) (permit : s.permit = true) :
      Stepped s .rouse { s with permit := false, phase := .collecting [] } []
  | take (got rest : List ε) (e : ε) (phase : s.phase = .collecting got)
      (queue : s.queue = e :: rest) :
      Stepped s .take { s with queue := rest, phase := .collecting (got ++ [e]) } []
  | found (got : List ε) (phase : s.phase = .collecting got) (queue : s.queue = []) :
      Stepped s .take { s with phase := .applying got !got.isEmpty } []
  | apply (x : ξ) (e : ε) (left : List ε) (any : Bool)
      (phase : s.phase = .applying (e :: left) any) :
      Stepped s (.apply x) { s with state := f s.state x e, phase := .applying left any } [e]
  | finish (x : ξ) (any : Bool) (phase : s.phase = .applying [] any) :
      Stepped s (.apply x)
        { s with phase := .waiting, shown := if any then s.state else s.shown } []
  | act (u : υ) (state : σ) (phase : s.phase = .waiting) (acted : g s.state u = some state) :
      Stepped s (.act u) { s with state := state, shown := state } []

variable {f g} {s s' : Wakeup ε σ} {l : Label ε ξ υ} {out : List ε}

/-- The inversion rule of a loop.

**Proof sketch.** By cases on the label, and on the phase that it needs. -/
theorem step_cases (h : s.step f g l = some (s', out)) : Stepped f g s l s' out := by
  cases l with
  | put e =>
    obtain ⟨rfl, rfl⟩ := Prod.mk.inj (Option.some.inj h)
    exact .put e
  | wake =>
    simp only [step] at h
    split at h
    · cases h
    · rename_i n hn
      obtain ⟨rfl, rfl⟩ := Prod.mk.inj (Option.some.inj h)
      exact .wake n hn
  | rouse =>
    simp only [step] at h
    split at h
    · rename_i hphase
      split_ifs at h with hpermit
      obtain ⟨rfl, rfl⟩ := Prod.mk.inj (Option.some.inj h)
      exact .rouse hphase hpermit
    · cases h
  | take =>
    simp only [step] at h
    split at h
    · rename_i got e rest hphase hqueue
      obtain ⟨rfl, rfl⟩ := Prod.mk.inj (Option.some.inj h)
      exact .take got rest e hphase hqueue
    · rename_i got hphase hqueue
      obtain ⟨rfl, rfl⟩ := Prod.mk.inj (Option.some.inj h)
      exact .found got hphase hqueue
    · cases h
  | apply x =>
    simp only [step] at h
    split at h
    · rename_i e left any hphase
      obtain ⟨rfl, rfl⟩ := Prod.mk.inj (Option.some.inj h)
      exact .apply x e left any hphase
    · rename_i any hphase
      obtain ⟨rfl, rfl⟩ := Prod.mk.inj (Option.some.inj h)
      exact .finish x any hphase
    · cases h
  | act u =>
    simp only [step] at h
    split at h
    · rename_i hphase
      obtain ⟨state, hact, hres⟩ := Option.map_eq_some_iff.1 h
      obtain ⟨rfl, rfl⟩ := Prod.mk.inj hres
      exact .act u state hphase hact
    · cases h

/-! ## No event is lost, doubled or overtaken -/

/-- A step puts an event at the end of what is under way, or applies the first one. -/
lemma pending_step (h : s.step f g l = some (s', out)) :
    out ++ (s'.phase.batch ++ s'.queue) = s.phase.batch ++ s.queue ++ l.put?.toList := by
  cases step_cases h with
  | put e => simp [Label.put?]
  | wake n waking => simp [Label.put?]
  | rouse phase permit => simp [Label.put?, Phase.batch, phase]
  | take got rest e phase queue => simp [Label.put?, Phase.batch, phase, queue]
  | found got phase queue => simp [Label.put?, Phase.batch, phase]
  | apply x e left any phase => simp [Label.put?, Phase.batch, phase]
  | finish x any phase => simp [Label.put?, Phase.batch, phase]
  | act u state phase => simp [Label.put?]

/-- **Events are applied once each, and in the order in which they were sent**: what was applied in
a run, what the consumer holds and what is queued is what was under way before and was sent
since.

**Proof sketch.** By induction on the run: each step moves an event from one of the places to the
next, in order, and a new one goes to the end. -/
theorem applied {labels : List (Label ε ξ υ)} {outs : List ε}
    (h : Machine.run (step f g) s labels = some (s', outs)) :
    outs ++ (s'.phase.batch ++ s'.queue) =
      s.phase.batch ++ s.queue ++ labels.filterMap Label.put? := by
  induction labels generalizing s outs with
  | nil =>
    obtain ⟨rfl, rfl⟩ := by simpa using h
    simp
  | cons l labels ih =>
    obtain ⟨t, out, outs', hstep, hrest, rfl⟩ := Machine.run_cons_eq_some.1 h
    have hput : (l :: labels).filterMap Label.put? =
        l.put?.toList ++ labels.filterMap Label.put? := by
      cases hl : l.put? <;> simp [hl]
    calc out ++ outs' ++ (s'.phase.batch ++ s'.queue)
        = out ++ (t.phase.batch ++ t.queue) ++ labels.filterMap Label.put? := by
          rw [List.append_assoc, ih hrest, ← List.append_assoc]
      _ = s.phase.batch ++ s.queue ++ (l.put?.toList ++ labels.filterMap Label.put?) := by
          rw [pending_step hstep, List.append_assoc]
      _ = s.phase.batch ++ s.queue ++ (l :: labels).filterMap Label.put? := by rw [hput]

/-! ## The consumer is woken -/

/-- Whatever is on the queue will be found: the consumer has yet to look, or it was or will be
woken. And what was applied will be shown. -/
structure Alert (s : Wakeup ε σ) : Prop where
  found : s.queue ≠ [] → (∃ got, s.phase = .collecting got) ∨ s.permit = true ∨ 0 < s.waking
  idle : (∀ left any, s.phase ≠ .applying left any) → s.shown = s.state
  nothing : ∀ left, s.phase = .applying left false → left = [] ∧ s.shown = s.state

/-- A loop that has just begun is alert: nothing is queued. -/
lemma alert_start (state : σ) : (start state : Wakeup ε σ).Alert where
  found h := absurd rfl h
  idle _ := rfl
  nothing _ h := by cases h

/-- **Every step keeps the consumer alert.**

**Proof sketch.** By cases on the step. A new event comes with a wake-up of its own, a wake-up sets
the permit, and whoever takes the permit looks at the queue; only an empty queue ends the
collecting. -/
lemma Alert.step (hs : s.Alert) (h : s.step f g l = some (s', out)) : s'.Alert := by
  cases step_cases h with
  | put e => exact ⟨fun _ => Or.inr (Or.inr (Nat.succ_pos _)), hs.idle, hs.nothing⟩
  | wake n waking => exact ⟨fun _ => Or.inr (Or.inl rfl), hs.idle, hs.nothing⟩
  | rouse phase permit =>
    refine ⟨fun _ => Or.inl ⟨[], rfl⟩, fun _ => hs.idle ?_, fun left hleft => by cases hleft⟩
    intro left any
    simp [phase]
  | take got rest e phase queue =>
    refine ⟨fun _ => Or.inl ⟨_, rfl⟩, fun _ => hs.idle ?_, fun left hleft => by cases hleft⟩
    intro left any
    simp [phase]
  | found got phase queue =>
    have hidle : s.shown = s.state := hs.idle (by simp [phase])
    refine ⟨fun hne => absurd queue hne, fun hphase => absurd rfl (hphase _ _), ?_⟩
    intro left hleft
    simp only [Phase.applying.injEq, Bool.not_eq_false', List.isEmpty_iff] at hleft
    exact ⟨hleft.1 ▸ hleft.2, hidle⟩
  | apply x e left any phase =>
    refine ⟨?_, fun hphase => absurd rfl (hphase _ _), ?_⟩
    · intro hne
      simpa [phase] using hs.found hne
    · intro left' hleft
      cases hleft
      cases (hs.nothing _ phase).1
  | finish x any phase =>
    refine ⟨?_, fun _ => ?_, fun left hleft => by cases hleft⟩
    · intro hne
      simpa [phase] using hs.found hne
    · cases any with
      | true => rfl
      | false => exact (hs.nothing _ phase).2
  | act u state phase =>
    refine ⟨?_, fun _ => rfl, fun left hleft => ?_⟩
    · intro hne
      simpa [phase] using hs.found hne
    · simp [phase] at hleft

/-- A run keeps a loop alert. By the step lemma above and induction on the run. -/
lemma alert_of_run {labels : List (Label ε ξ υ)} {outs : List ε} (hs : s.Alert)
    (h : Machine.run (Wakeup.step f g) s labels = some (s', outs)) : s'.Alert :=
  Machine.run_invariant (I := fun s _ => s.Alert) (fun _ _ _ _ _ hI hstep => hI.step hstep) hs h

/-! ## What is under way comes to an end -/

/-- Nothing is under way. -/
def Quiet (s : Wakeup ε σ) : Prop := s.waking = 0 ∧ s.permit = false ∧ s.phase = .waiting

/-- When nothing is under way, the queue is empty and the state is shown.

**Proof sketch.** A queue that is not empty would have a collector, a permit or a wake-up, and there
is none of them. Nothing was applied since the state was last shown. -/
lemma quiet_done (hs : s.Alert) (h : s.Quiet) :
    s.phase.batch ++ s.queue = [] ∧ s.shown = s.state := by
  obtain ⟨hwaking, hpermit, hphase⟩ := h
  constructor
  · have hqueue : s.queue = [] := by
      by_contra hne
      rcases hs.found hne with ⟨got, hgot⟩ | hset | hpos
      · simp [hphase] at hgot
      · simp [hpermit] at hset
      · omega
    simp [hphase, hqueue, Phase.batch]
  · apply hs.idle
    intro left any
    simp [hphase]

/-- As long as something is under way, it can go on, whatever the input for the next event is.

**Proof sketch.** By cases on the phase. A loop that waits without a permit has a wake-up under way,
or nothing is. -/
lemma exists_step (x : ξ) (h : ¬ s.Quiet) :
    ∃ l : Label ε ξ υ, l.inner = true ∧ ∃ r, s.step f g l = some r := by
  cases hphase : s.phase with
  | collecting got =>
    refine ⟨.take, rfl, ?_⟩
    cases hqueue : s.queue with
    | nil => exact ⟨_, by simp only [step, hphase, hqueue]; rfl⟩
    | cons e rest => exact ⟨_, by simp only [step, hphase, hqueue]; rfl⟩
  | applying left any =>
    refine ⟨.apply x, rfl, ?_⟩
    cases left with
    | nil => exact ⟨_, by simp only [step, hphase]; rfl⟩
    | cons e left => exact ⟨_, by simp only [step, hphase]; rfl⟩
  | waiting =>
    by_cases hpermit : s.permit = true
    · exact ⟨.rouse, rfl, _, by simp only [step, hphase, hpermit, if_true]; rfl⟩
    · cases hwaking : s.waking with
      | zero => exact absurd ⟨hwaking, by simpa using hpermit, hphase⟩ h
      | succ n => exact ⟨.wake, rfl, _, by simp only [step, hwaking]; rfl⟩

/-- What the consumer has to do before it waits again. -/
def Phase.work : Phase ε → ℕ
  | waiting => 0
  | collecting got => 2 + got.length
  | applying left _ => 1 + left.length

/-- How many steps can be taken at most before the next event is sent. -/
def work (s : Wakeup ε σ) : ℕ :=
  4 * s.waking + 3 * s.permit.toNat + 2 * s.queue.length + s.phase.work

/-- **What is under way comes to an end**: every step of it leaves less work.

**Proof sketch.** By cases on the step. The measure weighs what is queued more than what is held,
and what is held more than the phases. -/
lemma work_step (hl : l.inner = true) (h : s.step f g l = some (s', out)) :
    s'.work < s.work := by
  cases step_cases h with
  | put | act => cases hl
  | wake n waking =>
    have hpermit : s.permit.toNat ≤ 1 := Bool.toNat_le s.permit
    simp only [work, waking, Bool.toNat_true]
    omega
  | rouse phase permit =>
    simp only [work, phase, permit, Phase.work, Bool.toNat_true, Bool.toNat_false, List.length_nil]
    omega
  | take got rest e phase queue =>
    simp only [work, phase, queue, Phase.work, List.length_cons, List.length_append,
      List.length_nil]
    omega
  | found got phase queue =>
    simp only [work, phase, Phase.work]
    omega
  | apply x e left any phase =>
    simp only [work, phase, Phase.work, List.length_cons]
    omega
  | finish x any phase =>
    simp only [work, phase, Phase.work, List.length_nil]
    omega

/-- A run of what is under way is no longer than the work there is. -/
lemma length_le_work {labels : List (Label ε ξ υ)} {outs : List ε}
    (hinner : ∀ l ∈ labels, l.inner = true)
    (h : Machine.run (step f g) s labels = some (s', outs)) :
    labels.length + s'.work ≤ s.work := by
  induction labels generalizing s outs with
  | nil =>
    obtain ⟨rfl, -⟩ := by simpa using h
    simp
  | cons l labels ih =>
    obtain ⟨t, out, outs', hstep, hrest, rfl⟩ := Machine.run_cons_eq_some.1 h
    have hless := work_step (hinner l List.mem_cons_self) hstep
    have hle := ih (fun l' hl' => hinner l' (List.mem_cons_of_mem _ hl')) hrest
    rw [List.length_cons]
    omega

end Step

end Wakeup
