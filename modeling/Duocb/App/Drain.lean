import Duocb.App
import Duocb.Library.Wakeup

set_option relaxedAutoImplicit false
set_option autoImplicit false

/-!
# Draining the events of the runtime

The threads of the runtime put events on a channel, and each of them then wakes a task on the thread
of the user interface. That task drains the channel, applies the events to the application and shows
it; a permit is stored for it meanwhile, so that a wake that races the end of a draining makes it go
around again. Actions of the user come in between, while the task waits, and each of them shows the
application too.

## Main definitions

* `Duocb.Desktop`, `Duocb.Desktop.step` — the application with its channel, its permit and its task.

## Main results

* `Duocb.Desktop.no_event_missed` — every event is applied once, in order, and shown.
-/

namespace Duocb

/-- The application, the events on their way to it, and the task that drains them. -/
abbrev Desktop (τ : Type) : Type := Wakeup NetEvent (App τ)

namespace Desktop

variable {τ : Type}

/-- What moves the desktop application: an event comes with the time at which it is applied, and an
action of the user with the clock. -/
abbrev Label (τ : Type) : Type := Wakeup.Label NetEvent τ (Wall × UserAction)

/-- An action of the user, if its control is there. -/
def act (a : App τ) (u : Wall × UserAction) : Option (App τ) :=
  if a.enabled u.2 then some (a.act u.1 u.2).1 else none

/-- One step of the desktop application, and the event it applies. -/
def step (d : Desktop τ) (l : Label τ) : Option (Desktop τ × List NetEvent) :=
  Wakeup.step App.applyEvent act d l

/-- **No event is missed.** Whatever the threads of the runtime send and whenever they wake the
application, and whatever the user does meanwhile: events are applied once each, in the order in
which they were sent. What is under way comes to an end after a bounded number of steps, in any
order, unless another event is sent or the user acts; and then every event that was sent has been
applied, and the window shows the result.

**Proof sketch.** The desktop is a loop of the library whose events are applied to the application.
Events move through it in order and one at a time, each of its own steps leaves less work, and when
it can go on no more it is quiet: nothing is queued, and the state is shown. -/
theorem no_event_missed {a : App τ} (now : τ) {labels : List (Label τ)} {d : Desktop τ}
    {applied : List NetEvent}
    (hrun : Machine.run step (Wakeup.start a) labels = some (d, applied)) :
    applied ++ (d.phase.batch ++ d.queue) = labels.filterMap Wakeup.Label.put? ∧
    ∀ more d' applied', (∀ l ∈ more, l.inner = true) →
      Machine.run step d more = some (d', applied') → more.length ≤ d.work ∧
        ((∃ l : Label τ, l.inner = true ∧ ∃ r, step d' l = some r) ∨
          (applied ++ applied' = labels.filterMap Wakeup.Label.put? ∧ d'.shown = d'.state)) := by
  have hsent := Wakeup.applied (f := App.applyEvent) (g := act) hrun
  have halert := Wakeup.alert_of_run (f := App.applyEvent) (g := act)
    (Wakeup.alert_start a) hrun
  refine ⟨by simpa [Wakeup.start, Wakeup.Phase.batch] using hsent, ?_⟩
  intro more d' applied' hinner hmore
  have hwork := Wakeup.length_le_work (f := App.applyEvent) (g := act) hinner hmore
  refine ⟨by omega, ?_⟩
  by_cases hquiet : d'.Quiet
  · right
    have halert' := Wakeup.alert_of_run (f := App.applyEvent) (g := act) halert hmore
    obtain ⟨hempty, hshown⟩ := Wakeup.quiet_done halert' hquiet
    refine ⟨?_, hshown⟩
    -- nothing was sent since, and nothing is under way any more
    have hnone : more.filterMap Wakeup.Label.put? = [] := by
      rw [List.filterMap_eq_nil_iff]
      intro l hl
      have hin := hinner l hl
      cases l <;> first | rfl | cases hin
    have hrest := Wakeup.applied (f := App.applyEvent) (g := act) hmore
    rw [hempty, hnone, List.append_nil, List.append_nil] at hrest
    rw [hrest]
    simpa [Wakeup.start, Wakeup.Phase.batch] using hsent
  · exact Or.inl (Wakeup.exists_step now hquiet)

section Sample

/-- An application without peers. -/
def idleApp : App ℕ := App.init .lanThenNostr ⟨.filled 1⟩ none "a7B2c3D4" none []

/-- Two events are drained, and a third one is sent when the channel was just found empty, -/
def races : List (Label ℕ) :=
  [.put (.status .starting), .put (.status .waiting), .wake, .rouse, .take, .take, .take,
    .put (.status .connected), .apply 0, .wake, .apply 1, .wake, .apply 2]

/-- and drained in a second round. -/
def secondRound : List (Label ℕ) := [.rouse, .take, .take, .apply 3, .apply 4]

/-- The event that raced the end of the first round is not missed.

**Proof sketch.** The run is computed. Both rounds are complete by the theorem, since none of the
labels is possible any more. -/
theorem no_event_missed_sample : ∃ d applied d' applied',
    Machine.run step (Wakeup.start idleApp) races = some (d, applied) ∧
    Machine.run step d secondRound = some (d', applied') ∧
    applied ++ applied' = [.status .starting, .status .waiting, .status .connected] ∧
    d'.shown = d'.state := by
  obtain ⟨d, applied, hrun⟩ : ∃ d applied,
      Machine.run step (Wakeup.start idleApp) races = some (d, applied) := ⟨_, _, rfl⟩
  have h := (no_event_missed 0 hrun).2 secondRound
  obtain ⟨rfl, rfl⟩ := Prod.mk.inj (Option.some.inj hrun)
  obtain ⟨-, hdone⟩ := h _ _ (by decide) rfl
  refine ⟨_, _, _, _, hrun, rfl, ?_⟩
  rcases hdone with ⟨l, hl, r, hr⟩ | hdone
  · -- no party has anything left to do
    cases l with
    | wake | rouse | take | apply => cases hr
    | put | act => cases hl
  · exact hdone

end Sample

end Desktop

end Duocb
