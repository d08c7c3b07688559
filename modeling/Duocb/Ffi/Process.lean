import Mathlib.Logic.Function.Basic
import Duocb.Ffi
import Duocb.Library.Machine

set_option relaxedAutoImplicit false
set_option autoImplicit false

/-!
# The process of a mobile application

A process runs one session at a time and presents one node id. Two process-wide cells see to it: a
flag that a start claims with a compare-and-exchange, and a transport key that the first start
fixes. The calls come from any number of threads, and between two accesses to a cell any other call
may go on.

## Main definitions

* `Duocb.StartCall` — how far a call of `duocb_start` has come, and what became of its handle.
* `Duocb.Process`, `Duocb.Process.step` — the two cells and all calls, and one access of a call.
* `Duocb.Process.Slot` — the flag and the call that owns the slot.
* `Duocb.Process.Pinned` — the key of the process and what presents it.

## Main results

* `Duocb.Process.step_cases` — everything a step can do.
* `Duocb.Process.one_session` — one session at a time, and the slot is never lost.
* `Duocb.Process.one_node_id` — all handles of a process present the same key.
-/

namespace Duocb

/-- What a handle keeps of its plan: the key that its runtime presents, the command that starts its
session, and the one that ends it. -/
structure Handle where
  irohSecret : Bytes
  sessionCmd : UiCommand
  disconnectCmd : UiCommand
  deriving DecidableEq

/-- How far a call of `duocb_start` has come. The calls of several threads are between two of these
points each; the flag and the key are shared by all of them. -/
inductive StartCall where
  /-- It was not made yet. -/
  | unmade
  /-- It was made, and looks at the flag next. -/
  | entered (json : String)
  /-- It has set the flag. -/
  | claimed (json : String)
  | planned (plan : StartPlan)
  /-- Its key is the one of the process. -/
  | pinned (plan : StartPlan)
  /-- It has failed, and clears the flag next. -/
  | failing (message : String)
  | refused (message : String)
  /-- It has returned a handle. -/
  | live (handle : Handle)
  /-- `duocb_stop` was called on the handle, and waits for the runtime to end. -/
  | stopping (handle : Handle)
  | stopped (handle : Handle)
  deriving DecidableEq

namespace StartCall

/-- The call has set the flag and not cleared it yet. -/
def Owns : StartCall → Prop
  | claimed _ | planned _ | pinned _ | failing _ | live _ | stopping _ => True
  | _ => False

/-- Whether a call owns the slot is read off. -/
instance : DecidablePred Owns := fun c => by
  cases c <;> unfold Owns <;> infer_instance

/-- The plan a call works on, or the one its handle was made from. -/
def plan? : StartCall → Option StartPlan
  | planned plan | pinned plan => some plan
  | live h | stopping h | stopped h => some ⟨h.irohSecret, h.sessionCmd, h.disconnectCmd⟩
  | _ => none

/-- The key that a call, or its handle, has to present. -/
def presents : StartCall → Option Bytes
  | pinned plan => some plan.irohSecret
  | live h | stopping h | stopped h => some h.irohSecret
  | _ => none

end StartCall

/-- A process: the two cells, and its calls of `duocb_start`. -/
structure Process where
  running : Bool
  irohSecret : Option Bytes
  call : ℕ → StartCall

/-- How the runtime of a session is built and given its command. -/
inductive Built where
  | ok
  | failed (e : String)
  | unavailable

/-- What moves a process: a call begins or goes on, its handle is stopped, and the stopped runtime
ends or takes too long. -/
inductive ProcessLabel where
  | enter (i : ℕ) (json : String)
  | claim (i : ℕ)
  | plan (i : ℕ)
  | pin (i : ℕ)
  | build (i : ℕ) (r : Built)
  | release (i : ℕ)
  | stop (i : ℕ)
  | shutdown (i : ℕ)

/-- The call that a label moves. -/
def ProcessLabel.call : ProcessLabel → ℕ
  | enter i _ | claim i | plan i | pin i | build i _ | release i | stop i | shutdown i => i

/-- Fix the key of the process, or hold a later start to it: the key, and whether the start may go
on. -/
def pinIrohSecret (slot : Option Bytes) (secret : Bytes) : Bytes × Except String Bytes :=
  let pinned := slot.getD secret
  (pinned,
    if pinned ≠ secret then
      .error "iroh_secret differs from the one this process already presents"
    else .ok pinned)

/-- The error of a start while another session has the slot. -/
def alreadyRunning : String := "a duocb session is already running"

namespace Process

/-- A process that has just begun. -/
def init : Process := ⟨false, none, fun _ => .unmade⟩

/-- A call has come to another place. -/
def setCall (s : Process) (i : ℕ) (c : StartCall) : Process :=
  { s with call := Function.update s.call i c }

/-- A call that has come to another place is there, -/
@[simp] lemma setCall_self (s : Process) (i : ℕ) (c : StartCall) : (s.setCall i c).call i = c :=
  Function.update_self ..

/-- and every other call is where it was. -/
@[simp] lemma setCall_of_ne (s : Process) {i j : ℕ} (c : StartCall) (h : j ≠ i) :
    (s.setCall i c).call j = s.call j := Function.update_of_ne h ..

/-- A call that moves leaves the flag alone, -/
@[simp] lemma setCall_running (s : Process) (i : ℕ) (c : StartCall) :
    (s.setCall i c).running = s.running := rfl

/-- and the key of the process. -/
@[simp] lemma setCall_irohSecret (s : Process) (i : ℕ) (c : StartCall) :
    (s.setCall i c).irohSecret = s.irohSecret := rfl

section Step

variable (N : Nostr) (B : Bech32) (fromStr : String → Except Error FfiConfig)

/-- The plan that a configuration text asks for. -/
def planOf (json : String) : Except String StartPlan := do
  let cfg ← labelled "invalid config JSON: " (fromStr json)
  buildStartPlan N B cfg

/-- One step of a process in which the configuration texts are planned as given. A step is what a
thread does between two accesses to what is shared. What the planner makes of a text is a parameter,
since no step looks into it. -/
def stepOn (plans : String → Except String StartPlan) (s : Process) :
    ProcessLabel → Option Process
  | .enter i json =>
    match s.call i with
    | .unmade => some (s.setCall i (.entered json))
    | _ => none
  | .claim i =>
    match s.call i with
    | .entered json =>
      if s.running then some (s.setCall i (.refused alreadyRunning))
      else some { s.setCall i (.claimed json) with running := true }
    | _ => none
  | .plan i =>
    match s.call i with
    | .claimed json =>
      match plans json with
      | .ok plan => some (s.setCall i (.planned plan))
      | .error message => some (s.setCall i (.failing message))
    | _ => none
  | .pin i =>
    match s.call i with
    | .planned plan =>
      let (pinned, r) := pinIrohSecret s.irohSecret plan.irohSecret
      match r with
      | .ok secret => some { s.setCall i (.pinned { plan with irohSecret := secret }) with
          irohSecret := some pinned }
      | .error message => some { s.setCall i (.failing message) with irohSecret := some pinned }
    | _ => none
  | .build i r =>
    match s.call i with
    | .pinned plan =>
      match r with
      | .ok =>
        some (s.setCall i (.live ⟨plan.irohSecret, plan.sessionCmd, plan.disconnectCmd⟩))
      | .failed e => some (s.setCall i (.failing ("failed to build tokio runtime: " ++ e)))
      | .unavailable => some (s.setCall i (.failing "runtime unavailable"))
    | _ => none
  | .release i =>
    match s.call i with
    | .failing message => some { s.setCall i (.refused message) with running := false }
    | _ => none
  | .stop i =>
    match s.call i with
    | .live h => some (s.setCall i (.stopping h))
    | _ => none
  | .shutdown i =>
    match s.call i with
    | .stopping h => some { s.setCall i (.stopped h) with running := false }
    | _ => none

/-- One step of a process. -/
def step (s : Process) (l : ProcessLabel) : Option Process :=
  s.stepOn (planOf N B fromStr) l

/-! ## What a step can do -/

/-- **Everything a step of a process can do**: only the call of the label goes on, and of the cells
it touches what is said here. -/
inductive Stepped (s : Process) : ProcessLabel → Process → Prop
  | enter (i : ℕ) (json : String) (now : s.call i = .unmade) :
      Stepped s (.enter i json) (s.setCall i (.entered json))
  | refused (i : ℕ) (json : String) (now : s.call i = .entered json) (taken : s.running = true) :
      Stepped s (.claim i) (s.setCall i (.refused alreadyRunning))
  | claimed (i : ℕ) (json : String) (now : s.call i = .entered json) (free : s.running = false) :
      Stepped s (.claim i) { s.setCall i (.claimed json) with running := true }
  | planned (i : ℕ) (json : String) (plan : StartPlan) (now : s.call i = .claimed json)
      (ok : planOf N B fromStr json = .ok plan) :
      Stepped s (.plan i) (s.setCall i (.planned plan))
  /-- A configuration is refused, or a runtime could not be built. -/
  | failed (l : ProcessLabel) (message : String) (now : (s.call l.call).Owns) :
      Stepped s l (s.setCall l.call (.failing message))
  | pinned (i : ℕ) (plan : StartPlan) (now : s.call i = .planned plan)
      (same : ∀ secret, s.irohSecret = some secret → secret = plan.irohSecret) :
      Stepped s (.pin i)
        { s.setCall i (.pinned plan) with irohSecret := some plan.irohSecret }
  | differs (i : ℕ) (plan : StartPlan) (now : s.call i = .planned plan) (secret : Bytes)
      (other : s.irohSecret = some secret) (ne : secret ≠ plan.irohSecret) :
      Stepped s (.pin i) (s.setCall i
        (.failing "iroh_secret differs from the one this process already presents"))
  | built (i : ℕ) (plan : StartPlan) (now : s.call i = .pinned plan) :
      Stepped s (.build i .ok)
        (s.setCall i (.live ⟨plan.irohSecret, plan.sessionCmd, plan.disconnectCmd⟩))
  | released (i : ℕ) (message : String) (now : s.call i = .failing message) :
      Stepped s (.release i) { s.setCall i (.refused message) with running := false }
  | stopping (i : ℕ) (h : Handle) (now : s.call i = .live h) :
      Stepped s (.stop i) (s.setCall i (.stopping h))
  | stopped (i : ℕ) (h : Handle) (now : s.call i = .stopping h) :
      Stepped s (.shutdown i) { s.setCall i (.stopped h) with running := false }

variable {N B fromStr} {s s' : Process} {l : ProcessLabel}

/-- **What fixing the key can do.** The key at hand is that of the plan, or there is none yet and
that of the plan becomes it; or it is another one, and the call fails.

**Proof sketch.** By whether a key is at hand, and whether it is that of the plan. -/
lemma pin_cases {i : ℕ} {plan : StartPlan} (hnow : s.call i = .planned plan)
    (h : s.step N B fromStr (.pin i) = some s') : Stepped N B fromStr s (.pin i) s' := by
  simp only [step, stepOn, hnow, pinIrohSecret] at h
  cases hslot : s.irohSecret with
  | none =>
    simp only [hslot, Option.getD_none, ne_eq, not_true_eq_false, if_false] at h
    obtain rfl := Option.some.inj h
    exact .pinned i plan hnow (by simp [hslot])
  | some secret =>
    simp only [hslot, Option.getD_some] at h
    by_cases hsame : secret = plan.irohSecret
    · subst hsame
      simp only [ne_eq, not_true_eq_false, if_false] at h
      obtain rfl := Option.some.inj h
      exact .pinned i plan hnow (by simp [hslot])
    · simp only [ne_eq, hsame, not_false_eq_true, if_true, ← hslot] at h
      obtain rfl := Option.some.inj h
      exact .differs i plan hnow secret hslot hsame

/-- **The inversion rule of a process.**

**Proof sketch.** By cases on the label, and on where its call is. -/
theorem step_cases (h : s.step N B fromStr l = some s') : Stepped N B fromStr s l s' := by
  cases l with
  | enter i json =>
    simp only [step, stepOn] at h
    split at h
    · rename_i hnow
      obtain rfl := Option.some.inj h
      exact .enter i json hnow
    · cases h
  | claim i =>
    simp only [step, stepOn] at h
    split at h
    · rename_i json hnow
      split_ifs at h with hrunning
      · obtain rfl := Option.some.inj h
        exact .refused i json hnow hrunning
      · obtain rfl := Option.some.inj h
        exact .claimed i json hnow (by simpa using hrunning)
    · cases h
  | plan i =>
    simp only [step, stepOn] at h
    split at h
    · rename_i json hnow
      split at h
      · rename_i plan hplan
        obtain rfl := Option.some.inj h
        exact .planned i json plan hnow hplan
      · rename_i message hplan
        obtain rfl := Option.some.inj h
        have howns : (s.call i).Owns := by
          rw [hnow]
          trivial
        exact .failed (.plan i) message howns
    · cases h
  | pin i =>
    cases hnow : s.call i with
    | planned plan => exact pin_cases hnow h
    | _ => simp [step, stepOn, hnow] at h
  | build i r =>
    simp only [step, stepOn] at h
    split at h
    · rename_i plan hnow
      have howns : (s.call i).Owns := by
        rw [hnow]
        trivial
      cases r with
      | ok =>
        obtain rfl := Option.some.inj h
        exact .built i plan hnow
      | failed e =>
        obtain rfl := Option.some.inj h
        exact .failed (.build i (.failed e)) _ howns
      | unavailable =>
        obtain rfl := Option.some.inj h
        exact .failed (.build i .unavailable) _ howns
    · cases h
  | release i =>
    simp only [step, stepOn] at h
    split at h
    · rename_i message hnow
      obtain rfl := Option.some.inj h
      exact .released i message hnow
    · cases h
  | stop i =>
    simp only [step, stepOn] at h
    split at h
    · rename_i handle hnow
      obtain rfl := Option.some.inj h
      exact .stopping i handle hnow
    · cases h
  | shutdown i =>
    simp only [step, stepOn] at h
    split at h
    · rename_i handle hnow
      obtain rfl := Option.some.inj h
      exact .stopped i handle hnow
    · cases h

/-! ## One session -/

/-- The flag is set exactly while one call owns the slot. -/
structure Slot (s : Process) : Prop where
  single : ∀ i j, (s.call i).Owns → (s.call j).Owns → i = j
  running : s.running = true ↔ ∃ i, (s.call i).Owns

/-- In a process that has just begun no call owns the slot. -/
lemma slot_init : Slot init := by
  constructor
  · intro i j hi
    exact hi.elim
  · constructor
    · intro h
      cases h
    · rintro ⟨i, hi⟩
      exact hi.elim

/-- A call that owns the slot as long as before leaves the others to it.

**Proof sketch.** A call other than this one is unchanged, and this one owns the slot if it did. -/
lemma Slot.same (hs : s.Slot) {i : ℕ} {c : StartCall} (hcall : s'.call = (s.setCall i c).call)
    (hrunning : s'.running = s.running) (hsame : c.Owns ↔ (s.call i).Owns) : s'.Slot := by
  have howns : ∀ j, (s'.call j).Owns ↔ (s.call j).Owns := by
    intro j
    rw [hcall]
    by_cases hj : j = i
    · subst hj
      rw [setCall_self]
      exact hsame
    · rw [setCall_of_ne s c hj]
  constructor
  · intro j k hj hk
    exact hs.single j k ((howns j).1 hj) ((howns k).1 hk)
  · rw [hrunning, hs.running]
    exact exists_congr fun j => (howns j).symm

/-- A call that finds the flag cleared is alone with the slot.

**Proof sketch.** While the flag is cleared no call owns the slot, so that this one is the only one.
-/
lemma Slot.claim (hs : s.Slot) {i : ℕ} {c : StartCall} (hfree : s.running = false)
    (hc : c.Owns) : Slot { s.setCall i c with running := true } := by
  have hnone : ∀ j, ¬ (s.call j).Owns := by
    intro j hj
    have hset := hs.running.2 ⟨j, hj⟩
    rw [hfree] at hset
    cases hset
  have honly : ∀ j, ((s.setCall i c).call j).Owns → j = i := by
    intro j hj
    by_contra hne
    rw [setCall_of_ne s c hne] at hj
    exact hnone j hj
  constructor
  · intro j k hj hk
    exact (honly j hj).trans (honly k hk).symm
  · refine iff_of_true rfl ⟨i, ?_⟩
    show ((s.setCall i c).call i).Owns
    rw [setCall_self]
    exact hc

/-- Once the call that owns the slot clears the flag, nobody owns it.

**Proof sketch.** This call owns the slot no more, and no other one did. -/
lemma Slot.release (hs : s.Slot) {i : ℕ} {c : StartCall} (hi : (s.call i).Owns) (hc : ¬ c.Owns) :
    Slot { s.setCall i c with running := false } := by
  have hnone : ∀ j, ¬ ((s.setCall i c).call j).Owns := by
    intro j hj
    by_cases hne : j = i
    · subst hne
      rw [setCall_self] at hj
      exact hc hj
    · rw [setCall_of_ne s c hne] at hj
      exact hne (hs.single j i hj hi)
  constructor
  · intro j k hj
    exact absurd hj (hnone j)
  · exact iff_of_false Bool.false_ne_true fun ⟨j, hj⟩ => hnone j hj

/-- **Every step keeps the slot.** Only the call that owns it clears the flag, and only a call that
finds the flag cleared sets it.

**Proof sketch.** By the listed steps. Each keeps the owner, or hands the slot to a call that has
found it free, or takes it from its owner. -/
lemma Slot.step (hs : s.Slot) (h : s.step N B fromStr l = some s') : s'.Slot := by
  have owns : ∀ {i : ℕ} {c : StartCall}, s.call i = c → c.Owns → (s.call i).Owns := by
    intro i c hnow hc
    rw [hnow]
    exact hc
  cases step_cases h with
  | enter i json now => exact hs.same rfl rfl (by simp [now, StartCall.Owns])
  | refused i json now => exact hs.same rfl rfl (by simp [now, StartCall.Owns])
  | claimed i json now free => exact hs.claim free trivial
  | planned i json plan now => exact hs.same rfl rfl (by simp [now, StartCall.Owns])
  | failed l message now => exact hs.same rfl rfl (iff_of_true trivial now)
  | pinned i plan now => exact hs.same rfl rfl (by simp [now, StartCall.Owns])
  | differs i plan now => exact hs.same rfl rfl (by simp [now, StartCall.Owns])
  | built i plan now => exact hs.same rfl rfl (by simp [now, StartCall.Owns])
  | released i message now => exact hs.release (owns now trivial) id
  | stopping i handle now => exact hs.same rfl rfl (by simp [now, StartCall.Owns])
  | stopped i handle now => exact hs.release (owns now trivial) id

/-! ### The slot is given back -/

variable (N B fromStr) in
/-- A call can go on by its own steps until the flag is cleared. -/
def Frees (s : Process) (i : ℕ) : Prop :=
  ∃ ls t, (∀ l ∈ ls, l.call = i) ∧ Machine.exec (step N B fromStr) s ls = some t ∧
    t.running = false

/-- One step of a call on its way. -/
lemma Frees.next {i : ℕ} (hl : l.call = i) (h : s.step N B fromStr l = some s')
    (hs' : s'.Frees N B fromStr i) : s.Frees N B fromStr i := by
  obtain ⟨ls, t, hcalls, hrun, ht⟩ := hs'
  refine ⟨l :: ls, t, ?_, Machine.exec_cons_eq_some.2 ⟨s', h, hrun⟩, ht⟩
  intro l' hl'
  rcases List.mem_cons.1 hl' with rfl | hl'
  · exact hl
  · exact hcalls l' hl'

/-- A flag that is cleared is freed. -/
lemma frees_of_cleared (i : ℕ) (h : s.running = false) : s.Frees N B fromStr i :=
  ⟨[], s, by simp, rfl, h⟩

/-- A call that fails frees the slot in one step. -/
lemma frees_of_failing {i : ℕ} {message : String} (h : s.call i = .failing message) :
    s.Frees N B fromStr i := by
  apply Frees.next (l := .release i) rfl
  · simp only [step, stepOn, h]
    rfl
  · exact frees_of_cleared i rfl

/-- A handle that is stopping frees the slot in one step. -/
lemma frees_of_stopping {i : ℕ} {handle : Handle} (h : s.call i = .stopping handle) :
    s.Frees N B fromStr i := by
  apply Frees.next (l := .shutdown i) rfl
  · simp only [step, stepOn, h]
    rfl
  · exact frees_of_cleared i rfl

/-- A handle that is live is stopped first. -/
lemma frees_of_live {i : ℕ} {handle : Handle} (h : s.call i = .live handle) :
    s.Frees N B fromStr i := by
  apply Frees.next (l := .stop i) rfl
  · simp only [step, stepOn, h]
    rfl
  · exact frees_of_stopping (setCall_self ..)

/-- A call that has fixed the key becomes live or fails. -/
lemma frees_of_pinned {i : ℕ} {plan : StartPlan} (h : s.call i = .pinned plan) :
    s.Frees N B fromStr i := by
  apply Frees.next (l := .build i .ok) rfl
  · simp only [step, stepOn, h]
    rfl
  · exact frees_of_live (setCall_self ..)

/-- A call that has a plan fixes the key or fails. -/
lemma frees_of_planned {i : ℕ} {plan : StartPlan} (h : s.call i = .planned plan) :
    s.Frees N B fromStr i := by
  have hsome : ∃ t, s.step N B fromStr (.pin i) = some t := by
    simp only [step, stepOn, h]
    split
    · exact ⟨_, rfl⟩
    · exact ⟨_, rfl⟩
  obtain ⟨t, ht⟩ := hsome
  refine Frees.next (l := .pin i) rfl ht ?_
  cases step_cases ht with
  | failed l message => exact frees_of_failing (setCall_self ..)
  | pinned i plan => exact frees_of_pinned (setCall_self ..)
  | differs i plan => exact frees_of_failing (setCall_self ..)

/-- A call that has claimed the slot plans or fails. -/
lemma frees_of_claimed {i : ℕ} {json : String} (h : s.call i = .claimed json) :
    s.Frees N B fromStr i := by
  have hsome : ∃ t, s.step N B fromStr (.plan i) = some t := by
    simp only [step, stepOn, h]
    split
    · exact ⟨_, rfl⟩
    · exact ⟨_, rfl⟩
  obtain ⟨t, ht⟩ := hsome
  refine Frees.next (l := .plan i) rfl ht ?_
  cases step_cases ht with
  | planned i json plan => exact frees_of_planned (setCall_self ..)
  | failed l message => exact frees_of_failing (setCall_self ..)

/-- **Whoever owns the slot can give it back**, with no help from any other call. -/
lemma frees_of_owns {i : ℕ} (h : (s.call i).Owns) : s.Frees N B fromStr i := by
  cases hnow : s.call i with
  | claimed json => exact frees_of_claimed hnow
  | planned plan => exact frees_of_planned hnow
  | pinned plan => exact frees_of_pinned hnow
  | failing message => exact frees_of_failing hnow
  | live handle => exact frees_of_live hnow
  | stopping handle => exact frees_of_stopping hnow
  | unmade | entered | refused | stopped =>
    rw [hnow] at h
    exact h.elim

/-- **One session at a time, and the slot is never lost.** Whatever the calls of a process are and
however they interleave: at most one of them is starting a session, has one or is stopping it; a
start gets the slot if and only if there is none, and is refused at once if there is; and the call
that has the slot can give it back by itself.

**Proof sketch.** A flag that is set has one owner, by the invariant, so a claim finds it cleared
exactly if no call owns it. From each place a few steps of the call itself lead to where it clears
the flag. -/
theorem one_session {labels : List ProcessLabel}
    (hrun : Machine.exec (step N B fromStr) init labels = some s) :
    (∀ i j, (s.call i).Owns → (s.call j).Owns → i = j) ∧
    (∀ i json, s.call i = .entered json →
      ((∀ j, ¬ (s.call j).Owns) → s.step N B fromStr (.claim i) =
        some { s.setCall i (.claimed json) with running := true }) ∧
      ((∃ j, (s.call j).Owns) → s.step N B fromStr (.claim i) =
        some (s.setCall i (.refused alreadyRunning)))) ∧
    ∀ i, (s.call i).Owns → s.Frees N B fromStr i := by
  have hslot : s.Slot :=
    Machine.reachable_invariant slot_init (fun _ _ _ hs h => hs.step h) ⟨labels, hrun⟩
  refine ⟨hslot.single, ?_, fun i hi => frees_of_owns hi⟩
  intro i json hnow
  constructor
  · intro hnone
    have hfree : s.running = false := by
      rw [Bool.eq_false_iff]
      intro hset
      obtain ⟨j, hj⟩ := hslot.running.1 hset
      exact hnone j hj
    simp [step, stepOn, hnow, hfree]
  · intro hsome
    simp [step, stepOn, hnow, hslot.running.2 hsome]

/-! ## One node id -/

variable (N B fromStr) in
/-- Whatever presents a key presents that of the process, and every plan is that of a
configuration. -/
structure Pinned (s : Process) : Prop where
  keys : ∀ i secret, (s.call i).presents = some secret → s.irohSecret = some secret
  plans : ∀ i plan, (s.call i).plan? = some plan → ∃ json, planOf N B fromStr json = .ok plan

/-- A call that goes on keeps the books, when it accounts for the key and the plan it has.

**Proof sketch.** A call other than this one is unchanged, and what this one presents is accounted
for. -/
lemma Pinned.set (hs : s.Pinned N B fromStr) {i : ℕ} {c : StartCall}
    (hcall : s'.call = (s.setCall i c).call)
    (hfixed : ∀ secret, s.irohSecret = some secret → s'.irohSecret = some secret)
    (hkey : ∀ secret, c.presents = some secret → s'.irohSecret = some secret)
    (hplan : ∀ plan, c.plan? = some plan → ∃ json, planOf N B fromStr json = .ok plan) :
    s'.Pinned N B fromStr := by
  constructor
  · intro j secret hj
    rw [hcall] at hj
    by_cases hne : j = i
    · subst hne
      rw [setCall_self] at hj
      exact hkey secret hj
    · rw [setCall_of_ne s c hne] at hj
      exact hfixed secret (hs.keys j secret hj)
  · intro j plan hj
    rw [hcall] at hj
    by_cases hne : j = i
    · subst hne
      rw [setCall_self] at hj
      exact hplan plan hj
    · rw [setCall_of_ne s c hne] at hj
      exact hs.plans j plan hj

/-- A step never changes the key of a process that has one. -/
lemma irohSecret_step (h : s.step N B fromStr l = some s') {secret : Bytes}
    (hs : s.irohSecret = some secret) : s'.irohSecret = some secret := by
  cases step_cases h with
  | pinned i plan now same => rw [same secret hs]
  | _ => exact hs

/-- A step keeps what is known of the key of the process.

**Proof sketch.** By cases on the step. The plan that a call works on was planned from a
configuration, and the key that is fixed is that of the plan. -/
lemma Pinned.step (hs : s.Pinned N B fromStr) (h : s.step N B fromStr l = some s') :
    s'.Pinned N B fromStr := by
  have hfixed : ∀ secret, s.irohSecret = some secret → s'.irohSecret = some secret :=
    fun _ hs => irohSecret_step h hs
  cases step_cases h with
  | planned i json plan now ok =>
    refine hs.set rfl hfixed (by simp [StartCall.presents]) ?_
    intro plan' hplan
    obtain rfl := Option.some.inj hplan
    exact ⟨json, ok⟩
  | pinned i plan now =>
    refine hs.set rfl hfixed (fun _ hkey => hkey) ?_
    intro plan' hplan
    exact hs.plans i plan' (by rw [now]; exact hplan)
  | built i plan now =>
    refine hs.set rfl hfixed ?_ ?_
    · intro secret hkey
      exact hs.keys i secret (by rw [now]; exact hkey)
    · intro plan' hplan
      exact hs.plans i plan' (by rw [now]; exact hplan)
  | stopping i handle now | stopped i handle now =>
    refine hs.set rfl hfixed ?_ ?_
    · intro secret hkey
      exact hs.keys i secret (by rw [now]; exact hkey)
    · intro plan' hplan
      exact hs.plans i plan' (by rw [now]; exact hplan)
  | enter | refused | claimed | failed | differs | released =>
    exact hs.set rfl hfixed (by simp [StartCall.presents]) (by simp [StartCall.plan?])

end Step

section Sample

/-- Texts for the sample configuration, and for one with another transport key. -/
def sampleFromStr (json : String) : Except Error FfiConfig :=
  if json = "own" then .ok Device.sampleConfig
  else if json = "other" then
    .ok { Device.sampleConfig with irohSecret := some (toHex (List.replicate 32 8)) }
  else .error (.msg "expected value at line 1 column 1")

/-- Two starts race, the first handle is stopped again, a start with another key fails, and one
with the same key does not. -/
def sampleStarts : List ProcessLabel :=
  [.enter 0 "own", .enter 1 "own", .claim 0, .claim 1, .plan 0, .pin 0, .build 0 .ok, .stop 0,
    .shutdown 0, .enter 2 "other", .claim 2, .plan 2, .pin 2, .release 2, .enter 3 "own",
    .enter 4 "own", .claim 3, .plan 3, .pin 3, .build 3 .ok]

/-- The plan of the sample configuration, with the given transport key. -/
def samplePlan (irohSecret : Bytes) : StartPlan :=
  .dial irohSecret (.connect (.key ⟨⟨Device.key 2⟩, Device.card 2, [Device.card 1], defaultRelays⟩
    (Device.key 1) .lanThenNostr))

/-- A configuration that differs from the sample one at most in the transport key is planned with
that key.

**Proof sketch.** The checks of the plan are taken one after the other. Only the first of them looks
at the transport key. -/
lemma plan_sampleConfig {text : String} {irohSecret : Bytes}
    (h : parseIrohSecret (some text) = .ok irohSecret) :
    buildStartPlan .ofJson .standard { Device.sampleConfig with irohSecret := some text } =
      .ok (samplePlan irohSecret) := by
  have hpeers : readPeers .ofJson (Device.key 2) Device.sampleConfig.peers [] =
      .ok [Device.card 1] :=
    readPeers_ok (.cons (Device.parse_card 1) .nil) (by decide) (by simp) (by simp)
  have hkey : (Device.card 1).publicKey = Device.key 1 := rfl
  have hselected : ((Device.sampleConfig.peerPublicKey.map trim).filter fun key => key ≠ "") =
      some (Device.key 1).toHex := by decide +kernel
  simp only [buildStartPlan, bind_eq_ok, okOr_eq_ok, labelled_eq_ok, refuseIf_eq_ok]
  refine ⟨_, h, _, rfl, _, Device.parse_card 2, (), by decide, (), by decide, (), by decide, ?_⟩
  simp only [Device.sampleConfig, bind_eq_ok, okOr_eq_ok, labelled_eq_ok, refuseIf_eq_ok]
  refine ⟨_, rfl, ⟨Device.key 2⟩,
    Identity.parseNsec_toNsec Bech32.standard_lawful ⟨Device.key 2⟩, (), not_not.2 rfl, (),
    refuseIf_eq_ok.2 (by decide), _, hpeers, _, hselected, Device.card 1, ?_, rfl⟩
  simp [hkey]

/-- What the three kinds of texts plan. -/
def samplePlans (json : String) : Except String StartPlan :=
  if json = "own" then .ok (samplePlan (List.replicate 32 9))
  else if json = "other" then .ok (samplePlan (List.replicate 32 8))
  else .error "invalid config JSON: expected value at line 1 column 1"

/-- The texts are planned so. -/
lemma planOf_sample : planOf .ofJson .standard sampleFromStr = samplePlans := by
  funext json
  have hown : buildStartPlan .ofJson .standard Device.sampleConfig =
      .ok (samplePlan (List.replicate 32 9)) :=
    @plan_sampleConfig (toHex (List.replicate 32 9)) _ (by decide +kernel)
  have hother := @plan_sampleConfig (toHex (List.replicate 32 8)) (List.replicate 32 8)
    (by decide +kernel)
  unfold planOf sampleFromStr samplePlans
  split_ifs
  · exact bind_eq_ok.2 ⟨_, labelled_eq_ok.2 rfl, hown⟩
  · exact bind_eq_ok.2 ⟨_, labelled_eq_ok.2 rfl, hother⟩
  · rfl

/-- What the run comes to.

**Proof sketch.** The planner is exchanged for the table of the texts that occur, which it agrees
with; the run is then computed. -/
lemma sampleStarts_run : ∃ s,
    Machine.exec (step .ofJson .standard sampleFromStr) init sampleStarts = some s ∧
    ((s.call 3).Owns ∧ s.call 4 = .entered "own") ∧
    (s.call 0).presents = some (List.replicate 32 9) ∧
    (s.call 3).presents = some (List.replicate 32 9) := by
  have hstep : step .ofJson .standard sampleFromStr = stepOn samplePlans := by
    rw [← planOf_sample]
    rfl
  have hrun : ((Machine.exec (stepOn samplePlans) init sampleStarts).any
      fun s => decide (((s.call 3).Owns ∧ s.call 4 = .entered "own") ∧
        (s.call 0).presents = some (List.replicate 32 9) ∧
        (s.call 3).presents = some (List.replicate 32 9))) = true := by decide +kernel
  obtain ⟨s, hexec, hs⟩ := (Option.any_eq_true _ _).1 hrun
  exact ⟨s, by rw [hstep]; exact hexec, of_decide_eq_true hs⟩

/-- The last start has the slot, and the next one is refused. -/
theorem one_session_sample : ∃ s,
    Machine.exec (step .ofJson .standard sampleFromStr) init sampleStarts = some s ∧
    (s.call 3).Owns ∧ (∀ j, (s.call j).Owns → 3 = j) ∧
    s.step .ofJson .standard sampleFromStr (.claim 4) =
      some (s.setCall 4 (.refused alreadyRunning)) ∧
    s.Frees .ofJson .standard sampleFromStr 3 := by
  obtain ⟨s, hexec, ⟨howns, hentered⟩, -⟩ := sampleStarts_run
  obtain ⟨hsingle, hclaim, hfrees⟩ := one_session hexec
  exact ⟨s, hexec, howns, fun j => hsingle 3 j howns, (hclaim 4 "own" hentered).2 ⟨3, howns⟩,
    hfrees 3 howns⟩

end Sample

end Process

end Duocb
