import Duocb.System

set_option relaxedAutoImplicit false
set_option autoImplicit false

/-!
# The end of a session, as the application sees it

The application keeps one flag for its session. A start sets it and any idle event clears it, also
one of a session that another one has replaced since. The flag tells the truth as long as no idle
event is drained that is older than the last start.

## Main definitions

* `Duocb.Session.Live`, `Duocb.Runtime.Running` — a task that still listens, publishes or pumps.
* `Duocb.System.Timely` — a drained idle event is the last session's own.
* `Duocb.System.Idled` — what holds of the flag and of the idle events in the queue.

## Main results

* `Duocb.Runtime.not_running_of_idle` — a session that reports that it is idle has stopped.
* `Duocb.System.idle_means_stopped` — when the flag is down, nothing is left running.
* `Duocb.System.late_idle_hides_session` — an idle event of an earlier session hides a later one.
-/

namespace Duocb

/-! ## Sessions that have stopped -/

/-- A task that still listens, publishes or pumps. A dialer that only closes its endpoint does not,
and neither does a task that has returned. -/
def Session.Live (s : Session) : Prop :=
  match s.phase, s.kind with
  | .ended, _ => False
  | .closing, .client _ => False
  | _, _ => True

namespace Session

variable {C : Crypto} {ownId : EndpointId} {s s' : Session} {memory memory' : SessionMemory}
  {l : SessionLabel} {outs : List Out}

/-- A task is not live if it has returned, or if it is a client that only closes its endpoint. -/
lemma not_live_iff : ¬ s.Live ↔
    s.phase = .ended ∨ s.phase = .closing ∧ ∃ spec, s.kind = .client spec := by
  unfold Live
  split
  · rename_i h
    simp [h]
  · rename_i h hkind
    simp [h, hkind]
  · rename_i h h'
    simp only [not_true_eq_false, false_iff, not_or, not_and, not_exists]
    exact ⟨h, fun hc spec hkind => h' spec hc hkind⟩

/-- A task that has returned stays so: at most its publisher is asked to move.

**Proof sketch.** By the kind of the session and the label. After its end a task answers the
requests of its publisher only. -/
lemma ended_step (hphase : s.phase = .ended)
    (h : s.step C ownId memory l = some (s', memory', outs)) : s'.phase = .ended := by
  unfold step at h
  split at h
  · cases l with
    | publish p =>
      cases p with
      | hosting r =>
        simp only [serverStep, hphase] at h
        split at h
        · obtain ⟨rfl, -⟩ := by simpa using h
          rfl
        · cases h
      | pins p => simp [serverStep, hphase] at h
    | _ => simp [serverStep, hphase] at h
  · cases l with
    | publish p =>
      cases p with
      | hosting r => simp [hostStep, hphase] at h
      | pins p =>
        simp only [hostStep, hphase] at h
        split at h
        · obtain ⟨res, -, hres⟩ := Option.map_eq_some_iff.1 h
          obtain ⟨rfl, -⟩ := by simpa using hres
          rfl
        · cases h
    | _ => simp [hostStep, hphase] at h
  · cases l <;> simp [clientStep, hphase] at h
  · cases l <;> simp [joinerStep, hphase] at h

/-- A dialer that closes its endpoint can only return.

**Proof sketch.** By the kind of the dialer and the label: one branch of each is possible, and it
returns. -/
lemma closing_step {spec : DialSpec} (hkind : s.kind = .client spec) (hphase : s.phase = .closing)
    (h : s.step C ownId memory l = some (s', memory', outs)) : s'.phase = .ended := by
  cases spec with
  | key identity peer channel =>
    simp only [step, hkind] at h
    cases l with
    | closed =>
      obtain ⟨rfl, -⟩ := by simpa [clientStep, hphase] using h
      rfl
    | _ => simp [clientStep, hphase] at h
  | cardSetup pin card ip channel relays =>
    simp only [step, hkind] at h
    cases l with
    | closed =>
      obtain ⟨rfl, -⟩ := by simpa [joinerStep, hphase] using h
      rfl
    | _ => simp [joinerStep, hphase] at h

/-- A task that has stopped stays so. -/
lemma not_live_step (hs : ¬ s.Live) (h : s.step C ownId memory l = some (s', memory', outs)) :
    ¬ s'.Live := by
  rw [not_live_iff] at hs ⊢
  rcases hs with hphase | ⟨hphase, spec, hspec⟩
  · exact Or.inl (ended_step hphase h)
  · exact Or.inl (closing_step hspec hphase h)

/-- What a pump surfaces is not the end of the session. -/
lemma pump_not_idle {p : Pump} {clip clip' : Clip} {l : PumpLabel} {st : PumpState}
    {out : List PumpOut} (h : p.step clip l = some (st, clip', out)) (conn : Conn) :
    Out.status .idle ∉ out.map (pumpOut conn) := by
  cases Pump.step_cases h <;> simp [pumpOut, Out.status]

/-- **A task that reports that it is idle has stopped.**

**Proof sketch.** By the list of the steps of a task. Those that report it close the endpoint or
return, and any other step is quiet about it. -/
lemma not_live_of_idle (h : s.step C ownId memory l = some (s', memory', outs))
    (hidle : Out.status .idle ∈ outs) : ¬ s'.Live := by
  have hloud : ∀ {outs : List Out}, (∀ o ∈ outs, o.Quiet) → Out.status .idle ∉ outs :=
    fun hq hm => by simpa using hq _ hm
  have hsame := step_same h
  cases step_cases h with
  | stay _ _ _ _ _ _ _ _ _ _ quiet => exact absurd hidle (hloud quiet)
  | move _ _ _ _ _ _ _ _ _ quiet => exact absurd hidle (hloud quiet)
  | begin_ _ _ _ _ _ _ _ _ _ quiet => exact absurd hidle (hloud quiet)
  | goOn => cases hidle
  | paired _ _ _ _ _ _ _ _ _ _ _ _ _ _ _ _ _ quiet => exact absurd hidle (hloud quiet)
  | trades _ _ _ _ _ _ _ _ _ _ _ _ _ _ _ quiet => exact absurd hidle (hloud quiet)
  | pumps l conn hist p p' clip' out _ _ _ step => exact absurd hidle (pump_not_idle step conn)
  | unpaired _ _ _ _ _ _ _ _ _ _ _ _ _ _ _ quiet => exact absurd hidle (hloud quiet)
  | exhausted _ _ _ _ _ _ _ _ _ _ _ client _ _ phase =>
    obtain ⟨spec, hspec⟩ := client
    exact not_live_iff.2 (Or.inr ⟨phase, spec, hsame.kind.trans hspec⟩)
  | stops => simp [Out.status] at hidle
  | preempts => simp [Out.status] at hidle
  | receives _ _ _ _ _ _ _ _ outs_eq =>
    rcases outs_eq with rfl | rfl <;> simp [Out.status] at hidle
  | closes _ _ _ _ _ _ _ _ _ quiet => exact absurd hidle (hloud quiet)
  | givesUp _ _ _ _ _ _ client phase =>
    obtain ⟨spec, hspec⟩ := client
    exact not_live_iff.2 (Or.inr ⟨phase, spec, hsame.kind.trans hspec⟩)
  | returns => exact not_live_iff.2 (Or.inl rfl)
  | returnsIdle => exact not_live_iff.2 (Or.inl rfl)

end Session

namespace Runtime

variable {C : Crypto} {ownId : EndpointId} {r r' : Runtime} {l : RuntimeLabel}
  {outs : List RuntimeOut}

/-- The runtime has a session that is running. -/
def Running (r : Runtime) : Prop := ∃ s, r.task = some s ∧ s.Live

/-- A runtime whose task is not live does not run. -/
lemma not_running_of_task {s : Session} (htask : r.task = some s) (hs : ¬ s.Live) :
    ¬ r.Running := by
  rintro ⟨s', hs', hlive⟩
  obtain rfl := Option.some.inj (htask.symm.trans hs')
  exact hs hlive

/-- Without a session and a task that is being stopped there is no task. -/
lemma task_of_free (hgone : r.session = none) (hfree : ∀ s cmd, r.loop ≠ .stopping s cmd) :
    r.task = none := by
  unfold task
  split
  · rename_i s cmd hloop
    exact absurd hloop (hfree s cmd)
  · exact hgone

/-- A step that starts no session sets nothing going.

**Proof sketch.** By the list of the steps of the loop. A task that is not live does not come to
life, and a loop that has no task starts none. -/
lemma not_running_step (hex : r.Exclusive) (hr : ¬ r.Running)
    (h : r.step C ownId l = some (r', outs)) (hsess : r'.sessions = r.sessions) : ¬ r'.Running := by
  cases step_cases hex h with
  | own l s s' memory memory' os htask hm hstep =>
    have hs : ¬ s.Live := fun hlive => hr ⟨s, htask, hlive⟩
    exact not_running_of_task (withTask_task r s' memory').1 (Session.not_live_step hs hstep)
  | asked cmd paths s s' hidle hsession hsame hphase =>
    have htask : r.task = some s := by rw [task_of_receiving hidle, hsession]
    refine not_running_of_task (task_of_receiving (by exact hidle)) fun hlive => ?_
    refine hr ⟨s, htask, ?_⟩
    unfold Session.Live at hlive ⊢
    rwa [hphase, hsame.kind] at hlive
  | answered => exact hr
  | cancels cmd paths s hidle hsession =>
    have htask : r.task = some s := by rw [task_of_receiving hidle, hsession]
    exact not_running_of_task (s := { s with cancelled := true }) rfl fun hlive =>
      hr ⟨s, htask, hlive⟩
  | starts l kind =>
    have : r.sessions + 1 = r.sessions := hsess
    omega
  | forgets l hgone =>
    rintro ⟨s, hs, -⟩
    rw [task_of_free (by exact hgone) (by simp)] at hs
    cases hs
  | ends l loop hgone hfree =>
    rintro ⟨s, hs, -⟩
    rw [task_of_free (by exact hgone) (by exact hfree)] at hs
    cases hs

/-- What a step posts is posted for the session at hand, its peer and the text that it writes. -/
lemma mem_posts {e : Posted} (h : e ∈ r.posts outs) :
    e.session = r.sessions ∧ e.peer = r.peer ∧ e.text = r.task.bind Session.writing ∧
      ((∃ sid, .out sid (.event e.event) ∈ outs) ∨ .event e.event ∈ outs) := by
  obtain ⟨o, ho, he⟩ := List.mem_filterMap.1 h
  split at he
  · obtain rfl := Option.some.inj he
    exact ⟨rfl, rfl, rfl, Or.inl ⟨_, ho⟩⟩
  · obtain rfl := Option.some.inj he
    exact ⟨rfl, rfl, rfl, Or.inr ho⟩
  · cases he

/-- What the loop answers at once is an error, or the paths of the connection.

**Proof sketch.** By the command and the state of the session. -/
lemma answer_cases {cmd : UiCommand} {paths : List String} {e : NetEvent}
    (h : r.step C ownId (.command cmd paths) = some (r', [.event e])) :
    (∃ message, e = .error message) ∨ ∃ paths, e = .connPath paths := by
  simp only [step] at h
  split at h
  · have hcmd : r.command cmd paths = (r', [.event e]) := Option.some.inj h
    cases cmd with
    | refreshPin =>
      simp only [command, refreshPin] at hcmd
      split at hcmd
      · split_ifs at hcmd <;> simp at hcmd
        exact Or.inl ⟨_, hcmd.2.symm⟩
      · simp at hcmd
        exact Or.inl ⟨_, hcmd.2.symm⟩
    | sendClipboard text =>
      simp only [command, sendClipboard] at hcmd
      split at hcmd
      · split_ifs at hcmd <;> simp at hcmd
        exact Or.inl ⟨_, hcmd.2.symm⟩
      · simp at hcmd
        exact Or.inl ⟨_, hcmd.2.symm⟩
    | queryConnPath =>
      simp only [command, Prod.mk.injEq, List.cons.injEq, RuntimeOut.event.injEq, and_true] at hcmd
      exact Or.inr ⟨_, hcmd.2.symm⟩
    | _ =>
      simp only [command, stopSession] at hcmd
      split at hcmd
      · simp at hcmd
      · simp [settle, startSession] at hcmd
  · cases h

/-- **A session that reports that it is idle has stopped.**

**Proof sketch.** By the list of the steps of the loop. A task that reports that it is idle has
ended, and the loop reports it after its task has. -/
lemma not_running_of_idle (hex : r.Exclusive) (h : r.step C ownId l = some (r', outs)) {e : Posted}
    (he : e ∈ r.posts outs) (hidle : e.event = .status .idle) : ¬ r'.Running := by
  obtain ⟨-, -, -, hmem⟩ := mem_posts he
  rw [hidle] at hmem
  cases step_cases hex h with
  | own l s s' memory memory' os htask hm hstep =>
    have hout : Out.status .idle ∈ os := by simpa [Out.status] using hmem
    exact not_running_of_task (withTask_task r s' memory').1 (Session.not_live_of_idle hstep hout)
  | asked => simp at hmem
  | answered cmd paths e' hidle' =>
    have he' : e' = .status .idle := by
      rcases hmem with ⟨sid, hmem⟩ | hmem
      · cases List.mem_singleton.1 hmem
      · cases List.mem_singleton.1 hmem
        rfl
    rcases answer_cases h with ⟨message, rfl⟩ | ⟨paths', rfl⟩ <;> cases he'
  | cancels => simp at hmem
  | starts l kind => simp [startSession] at hmem
  | forgets l hgone =>
    rintro ⟨s, hs, -⟩
    rw [task_of_free (by exact hgone) (by simp)] at hs
    cases hs
  | ends => simp at hmem

/-- What the loop itself says is put on the queue. -/
lemma exists_posts {e : NetEvent} (h : .event e ∈ outs) : ∃ p ∈ r.posts outs, p.event = e :=
  ⟨_, List.mem_filterMap.2 ⟨_, h, rfl⟩, rfl⟩

/-- A command that ends the session is done, or it waits for the task to end.

**Proof sketch.** By the command and the session: without a session it is done at once, and with one
it waits. -/
lemma stop_taken {cmd : UiCommand} {paths : List String} (hstop : cmd.isStop = true)
    (h : r.step C ownId (.command cmd paths) = some (r', outs)) :
    (∃ s, r'.loop = .stopping s cmd) ∨ .event (.status .idle) ∈ outs := by
  simp only [step] at h
  split at h
  · have hcmd : r.command cmd paths = (r', outs) := Option.some.inj h
    cases cmd with
    | stopServer | disconnect =>
      simp only [command, stopSession] at hcmd
      split at hcmd
      · obtain ⟨rfl, rfl⟩ := Prod.mk.inj hcmd
        exact Or.inl ⟨_, rfl⟩
      · obtain ⟨rfl, rfl⟩ := Prod.mk.inj hcmd
        exact Or.inr (by simp)
    | _ => cases hstop
  · cases h

/-- A command that waits for the task to end goes on waiting, or is done.

**Proof sketch.** By the label. A step of the task keeps the loop waiting, and its end lets the
command be done, which reports it. -/
lemma stopping_step {s : Session} {cmd : UiCommand} (hloop : r.loop = .stopping s cmd)
    (hstop : cmd.isStop = true) (h : r.step C ownId l = some (r', outs)) :
    (∃ s', r'.loop = .stopping s' cmd) ∨ .event (.status .idle) ∈ outs := by
  have hsettle : ∀ {res : Runtime × List RuntimeOut}, r.settle cmd = res →
      .event (.status .idle) ∈ res.2 := by
    rintro res rfl
    cases cmd with
    | stopServer | disconnect => simp [settle]
    | _ => cases hstop
  cases l with
  | command cmd' paths => simp [step, hloop] at h
  | own a =>
    obtain ⟨s₁, s', memory, memory', os, -, -, -, rfl, rfl⟩ := own_cases h
    exact Or.inl ⟨s', by simp [withTask, hloop]⟩
  | joined =>
    simp only [step, hloop] at h
    split_ifs at h
    exact Or.inr (hsettle (Option.some.inj h))
  | aborted =>
    simp only [step, hloop] at h
    exact Or.inr (hsettle (Option.some.inj h))

end Runtime

/-! ## The flag -/

namespace App

variable {τ : Type}

/-- Only an idle event takes the flag down.

**Proof sketch.** By the event; none of the others touches the flag. -/
lemma applyEvent_sessionActive {a : App τ} {now : τ} {e : NetEvent} (he : e ≠ .status .idle) :
    (a.applyEvent now e).sessionActive = a.sessionActive := by
  cases e with
  | status status => cases status <;> first | rfl | exact absurd rfl he
  | peerCardReceived card =>
    simp only [applyEvent]
    split <;> rfl
  | itemReceived text pulled =>
    simp only [applyEvent]
    split_ifs <;> rfl
  | itemSent =>
    simp only [applyEvent]
    split <;> rfl
  | _ => rfl

end App

namespace System

variable {τ : Type} {C : Crypto} {ownId : EndpointId} {c : Launch} {sys sys' : System τ}
  {l : SystemLabel τ}

/-- An idle event is drained only if no session was asked for after the one that it reports. -/
def Timely (sys : System τ) (l : SystemLabel τ) : Prop :=
  ∀ now e rest, l = .drain now → sys.events = e :: rest → e.event = .status .idle →
    e.session = sys.asked

/-- What holds of the flag and of the idle events in the queue: an idle event of the last session
that has started finds it stopped, and when the flag is down no session is running or asked for. -/
structure Idled (sys : System τ) : Prop where
  exclusive : sys.runtime.Exclusive
  numbered : sys.runtime.sessions + sys.pending.length = sys.asked
  idle : ∀ e ∈ sys.events, e.event = .status .idle → e.session ≤ sys.runtime.sessions ∧
    (e.session = sys.runtime.sessions → ¬ sys.runtime.Running)
  inactive : sys.app.sessionActive = false → sys.pending = [] ∧ ¬ sys.runtime.Running

/-- A system that has just begun has no session. -/
lemma idled_init (c : Launch) : (init c : System τ).Idled where
  exclusive _ _ h := by cases h
  numbered := rfl
  idle _ h := by cases h
  inactive _ := ⟨rfl, fun ⟨_, h, _⟩ => by cases h⟩

/-- **Every step in which no idle event comes late keeps the flag true.**

**Proof sketch.** By the list of the steps of the system. The flag goes up with the session that is
asked for, and it goes down with an idle event. An event that comes in time belongs to the last
session, and that one has stopped. -/
lemma idled_of_step (h : sys.Idled) (htimely : sys.Timely l)
    (hstep : sys.step C ownId l = some sys') :
    sys'.Idled := by
  have hnumbered := numbered_of_step h.numbered hstep
  cases step_cases hstep with
  | acts w u app cmds act acted =>
    refine ⟨h.exclusive, hnumbered, h.idle, fun hinactive => ?_⟩
    have hflag : app.sessionActive = false := hinactive
    rw [pending_afterAct]
    cases acted with
    | quiet _ _ active _ _ plain =>
      have hnone : cmds.filterMap UiCommand.kind? = [] :=
        List.filterMap_eq_nil_iff.2 fun c hc => (plain c hc).1
      rw [hnone, List.append_nil]
      exact h.inactive (active.symm.trans hflag)
    | sends text => exact (List.append_nil sys.pending).symm ▸ h.inactive hflag
    | setsUp _ _ _ _ _ active =>
      rw [hflag] at active
      cases active
    | connects _ _ _ _ _ _ active =>
      rw [hflag] at active
      cases active
    | disowns _ active =>
      exact (List.append_nil sys.pending).symm ▸ h.inactive (active.symm.trans hflag)
  | drains now e rest events =>
    refine ⟨h.exclusive, hnumbered, fun e' he' => h.idle e' (events ▸ List.mem_cons_of_mem _ he'),
      fun hinactive => ?_⟩
    by_cases hidle : e.event = .status .idle
    · -- the last session that was asked for has reported its end
      obtain ⟨-, hstopped⟩ := h.idle e (events ▸ List.mem_cons_self) hidle
      have hlast := htimely now e rest rfl events hidle
      have hle := (h.idle e (events ▸ List.mem_cons_self) hidle).1
      have hn := h.numbered
      have hlen : sys.pending.length = 0 := by omega
      exact ⟨List.length_eq_zero_iff.1 hlen, hstopped (by omega)⟩
    · rw [afterDrain, App.applyEvent_sessionActive hidle] at hinactive
      exact h.inactive hinactive
  | runs l rest r outs commands step =>
    have hexclusive := Runtime.exclusive_of_step h.exclusive step
    -- no session is set going but by its start
    have hquiet : r.sessions = sys.runtime.sessions → ¬ sys.runtime.Running → ¬ r.Running :=
      fun hsess hr => Runtime.not_running_step h.exclusive hr step hsess
    refine ⟨hexclusive, hnumbered, fun e he hidle => ?_, fun hinactive => ?_⟩
    · rcases pending_afterRun commands step with ⟨kind, -, hstart⟩ | ⟨-, hsess⟩
      · obtain ⟨rfl, rfl⟩ := Prod.mk.inj hstart
        have hmem : e ∈ sys.events := by
          simpa [afterRun, Runtime.posts, Runtime.startSession] using he
        have hle := (h.idle e hmem hidle).1
        have hnext : (sys.runtime.startSession kind).1.sessions = sys.runtime.sessions + 1 := rfl
        refine ⟨?_, fun heq => ?_⟩
        · show e.session ≤ (sys.runtime.startSession kind).1.sessions
          omega
        · have : e.session = (sys.runtime.startSession kind).1.sessions := heq
          omega
      · show e.session ≤ r.sessions ∧ (e.session = r.sessions → ¬ r.Running)
        rw [hsess]
        rcases List.mem_append.1 he with he | he
        · obtain ⟨hle, hstopped⟩ := h.idle e he hidle
          exact ⟨hle, fun heq => hquiet hsess (hstopped heq)⟩
        · have hstopped := Runtime.not_running_of_idle h.exclusive step he hidle
          exact ⟨Nat.le_of_eq (Runtime.mem_posts he).1, fun _ => hstopped⟩
    · obtain ⟨hnil, hr⟩ := h.inactive hinactive
      rcases pending_afterRun commands step with ⟨kind, hpending, -⟩ | ⟨hpending, hsess⟩
      · rw [hnil] at hpending
        cases hpending
      · exact ⟨hpending.trans hnil, hquiet hsess hr⟩

/-- Both queues are empty, and no command is being carried out. -/
structure Drained (sys : System τ) : Prop where
  commands : sys.commands = []
  events : sys.events = []
  idle : sys.runtime.loop = .receiving

/-- The flag is down, or what will take it down is under way: a command that ends the session, or an
idle event. -/
def Ending (sys : System τ) : Prop :=
  sys.app.sessionActive = false ∨ (∃ cmd ∈ sys.commands, cmd.isStop = true) ∨
    (∃ s cmd, sys.runtime.loop = .stopping s cmd ∧ cmd.isStop = true) ∨
    ∃ e ∈ sys.events, e.event = .status .idle

/-- After all is drained, what would take the flag down has done so. -/
lemma Ending.inactive (h : sys.Ending) (hd : sys.Drained) : sys.app.sessionActive = false := by
  rcases h with h | ⟨cmd, hcmd, -⟩ | ⟨s, cmd, hloop, -⟩ | ⟨e, he, -⟩
  · exact h
  · rw [hd.commands] at hcmd
    cases hcmd
  · rw [hd.idle] at hloop
    cases hloop
  · rw [hd.events] at he
    cases he

/-- Going back asks for the end of the session, if there is one. -/
lemma ending_of_goBack {w : Wall} (h : sys.step C ownId (.user w .goBack) = some sys') :
    sys'.Ending := by
  simp only [step] at h
  split_ifs at h
  obtain rfl := Option.some.inj h
  cases hactive : sys.app.sessionActive with
  | false => exact Or.inl hactive
  | true =>
    refine Or.inr (Or.inl ⟨if sys.app.sessionHosting then .stopServer else .disconnect, ?_, ?_⟩)
    · exact List.mem_append_right _ (by simp [App.act, App.goBack, App.stopSession, hactive])
    · cases sys.app.sessionHosting <;> rfl

/-- A step that asks for no session keeps the end under way.

**Proof sketch.** By the list of the steps. No session is asked for, so the queue holds none, and
the session that was told to stop either goes on stopping or has stopped. -/
lemma ending_of_step (h : sys.Ending) (hstep : sys.step C ownId l = some sys')
    (hasked : sys'.asked = sys.asked) : sys'.Ending := by
  cases step_cases hstep with
  | acts w u app cmds act acted =>
    have hnone : (cmds.filterMap UiCommand.kind?).length = 0 := by
      have : sys.asked + (cmds.filterMap UiCommand.kind?).length = sys.asked := hasked
      omega
    have hactive : app.sessionActive = sys.app.sessionActive := by
      cases acted with
      | quiet _ _ active => exact active
      | sends => rfl
      | setsUp _ _ _ starts => simp [starts] at hnone
      | connects _ _ _ _ starts => simp [starts] at hnone
      | disowns _ active => exact active
    rcases h with h | ⟨cmd, hcmd, hstop⟩ | h | h
    · exact Or.inl (hactive.trans h)
    · exact Or.inr (Or.inl ⟨cmd, List.mem_append_left _ hcmd, hstop⟩)
    · exact Or.inr (Or.inr (Or.inl h))
    · exact Or.inr (Or.inr (Or.inr h))
  | drains now e rest events =>
    by_cases hidle : e.event = .status .idle
    · left
      rw [afterDrain, hidle]
      rfl
    rcases h with h | h | h | ⟨e', he', hidle'⟩
    · exact Or.inl ((App.applyEvent_sessionActive hidle).trans h)
    · exact Or.inr (Or.inl h)
    · exact Or.inr (Or.inr (Or.inl h))
    · rw [events] at he'
      rcases List.mem_cons.1 he' with rfl | he'
      · exact absurd hidle' hidle
      · exact Or.inr (Or.inr (Or.inr ⟨e', he', hidle'⟩))
  | runs l rest r outs commands step =>
    -- an idle event that the loop puts out is on the queue
    have hposted : .event (.status .idle) ∈ outs →
        ∃ e ∈ (sys.afterRun rest r outs).events, e.event = .status .idle := fun hout => by
      obtain ⟨p, hp, he⟩ := Runtime.exists_posts (r := sys.runtime) hout
      exact ⟨p, List.mem_append_right _ hp, he⟩
    rcases h with h | ⟨cmd, hcmd, hstop⟩ | ⟨s, cmd, hloop, hstop⟩ | ⟨e, he, hidle⟩
    · exact Or.inl h
    · rw [commands] at hcmd
      rcases List.mem_append.1 hcmd with htaken | hrest
      · cases l with
        | command cmd' paths =>
          obtain rfl := List.mem_singleton.1 htaken
          rcases Runtime.stop_taken hstop step with ⟨s, hloop⟩ | hout
          · exact Or.inr (Or.inr (Or.inl ⟨s, cmd, hloop, hstop⟩))
          · exact Or.inr (Or.inr (Or.inr (hposted hout)))
        | _ => cases htaken
      · exact Or.inr (Or.inl ⟨cmd, hrest, hstop⟩)
    · rcases Runtime.stopping_step hloop hstop step with ⟨s', hloop'⟩ | hout
      · exact Or.inr (Or.inr (Or.inl ⟨s', cmd, hloop', hstop⟩))
      · exact Or.inr (Or.inr (Or.inr (hposted hout)))
    · exact Or.inr (Or.inr (Or.inr ⟨e, List.mem_append_left _ he, hidle⟩))

/-- Sessions that were asked for stay asked for. -/
lemma asked_le (h : sys.step C ownId l = some sys') : sys.asked ≤ sys'.asked := by
  cases step_cases h with
  | acts => exact Nat.le_add_right _ _
  | drains => exact Nat.le_refl _
  | runs => exact Nat.le_refl _

/-- In a run that asks for no session, the end of one stays under way. -/
lemma ending_of_run {labels : List (SystemLabel τ)} (h : sys.Ending)
    (hrun : Machine.exec (step C ownId) sys labels = some sys') (hasked : sys'.asked = sys.asked) :
    sys'.Ending := by
  have hI : sys.asked ≤ sys'.asked ∧ (sys'.asked = sys.asked → sys'.Ending) := by
    refine Machine.reachable_invariant
      (I := fun s : System τ => sys.asked ≤ s.asked ∧ (s.asked = sys.asked → s.Ending))
      ⟨Nat.le_refl _, fun _ => h⟩ (fun s a s' hI hstep => ?_) ⟨labels, hrun⟩
    have hle := asked_le hstep
    refine ⟨Nat.le_trans hI.1 hle, fun heq => ?_⟩
    have hge := hI.1
    exact ending_of_step (hI.2 (by omega)) hstep (by omega)
  exact hI.2 hasked

/-- **When the flag is down, nothing is left running**, in every run in which no idle event is
drained after a later session was asked for. So once the user has gone back and asks for nothing
else, no session runs when both queues are empty.

**Proof sketch.** That the flag is true of the runtime is kept by every step in which no idle event
comes late. Going back tells the last session to stop. Since nothing is asked for after that, its
end stays under way, and when both queues are empty it has been reported and the report has been
drained. -/
theorem idle_means_stopped {labels : List (SystemLabel τ)} (hrun : Ran C ownId c labels sys)
    (hmeets : Machine.Meets (step C ownId) Timely (init c) labels) :
    (sys.app.sessionActive = false → ¬ sys.runtime.Running) ∧
    ∀ w more sys', Machine.exec (step C ownId) sys (.user w .goBack :: more) = some sys' →
      Machine.Meets (step C ownId) Timely sys (.user w .goBack :: more) →
      sys'.asked = sys.asked → sys'.Drained →
        sys'.app.sessionActive = false ∧ ¬ sys'.runtime.Running := by
  have keep : ∀ (s : System τ) a s', s.Idled → s.Timely a → s.step C ownId a = some s' → s'.Idled :=
    fun _ _ _ h ht hs => idled_of_step h ht hs
  have hI : sys.Idled := Machine.exec_invariant keep (idled_init c) hmeets hrun
  refine ⟨fun hinactive => (hI.inactive hinactive).2, ?_⟩
  intro w more sys' hrun' hmeets' hasked hdrained
  have hI' : sys'.Idled := Machine.exec_invariant keep hI hmeets' hrun'
  obtain ⟨sys₁, hback, hmore⟩ := Machine.exec_cons_eq_some.1 hrun'
  -- going back asks for nothing, and neither does what comes after it
  have hback_asked : sys.asked ≤ sys₁.asked := asked_le hback
  have hmore_asked : sys₁.asked ≤ sys'.asked :=
    Machine.reachable_invariant (I := fun s : System τ => sys₁.asked ≤ s.asked) (Nat.le_refl _)
      (fun _ _ _ hle hs => Nat.le_trans hle (asked_le hs)) ⟨more, hmore⟩
  have hinactive := (ending_of_run (ending_of_goBack hback) hmore (by omega)).inactive hdrained
  exact ⟨hinactive, (hI'.inactive hinactive).2⟩

section Sample

open Sample

/-- A device that has a name and a card. -/
def launch : Launch :=
  ⟨.lanOnly, ⟨.filled 1⟩, some "device", "suffix", some Runtime.setupCard, []⟩

/-- The clock of the user's actions. -/
def wall : Wall := ⟨0, fun _ => ""⟩

/-- The command that starts a card setup. -/
def startSetup : UiCommand := .startServer (.cardSetup Runtime.setupCard .lanOnly defaultRelays)

/-- The user shows a PIN, but the endpoint cannot be created, -/
def setupFails : List (SystemLabel ℕ) :=
  [.user wall (.openCardSetup none none), .user wall .hostCardSetup, .net (.command startSetup []),
    .net (.own (.begin 0)), .net (.own (.bound (.error (.msg "no network"))))]

/-- and goes back. -/
def leaves : List (SystemLabel ℕ) :=
  setupFails ++ [.user wall .goBack, .net (.command .stopServer []), .net .joined, .drain 0,
    .drain 0, .drain 0, .drain 0]

/-- Or the user goes back and shows a PIN again, before the application has drained an event. -/
def returns : List (SystemLabel ℕ) :=
  setupFails ++ [.user wall .goBack, .user wall .hostCardSetup, .net (.command .stopServer []),
    .net .joined, .net (.command startSetup []), .drain 0, .drain 0, .drain 0, .drain 0]

/-- Whether no late idle event is drained in a step. An idle event is late if another session was
asked for after the one that it is of. -/
def timely (sys : System τ) : SystemLabel τ → Bool
  | .drain _ =>
    match sys.events with
    | e :: _ => e.event != .status .idle || e.session == sys.asked
    | [] => true
  | _ => true

/-- A step that is found to be timely is. -/
lemma timely_of (h : sys.timely l = true) : sys.Timely l := by
  rintro now e rest rfl hevents hidle
  simpa [timely, hevents, hidle] using h

/-- A user who goes back after a card setup has failed leaves nothing running. -/
theorem idle_means_stopped_sample : ∃ sys, Ran plain hostId launch leaves sys ∧
    sys.app.sessionActive = false ∧ ¬ sys.runtime.Running := by
  have hrun : ((Machine.exec (step plain hostId) (init launch) leaves).any
      fun sys => !sys.app.sessionActive) = true := by decide +kernel
  obtain ⟨sys, hexec, hinactive⟩ := (Option.any_eq_true _ _).1 hrun
  have hflag : sys.app.sessionActive = false := by simpa using hinactive
  exact ⟨sys, hexec, hflag, (idle_means_stopped hexec
    (Machine.meets_of_check (fun _ _ => timely_of) (by decide +kernel))).1 hflag⟩

/-- Whether both queues are empty, and the loop waits for a command. -/
def drained (sys : System τ) : Bool :=
  sys.commands.isEmpty && sys.events.isEmpty &&
    match sys.runtime.loop with
    | .receiving => true
    | _ => false

/-- A system that is found to be drained is. -/
lemma drained_of (h : sys.drained = true) : sys.Drained := by
  simp only [drained, Bool.and_eq_true, List.isEmpty_iff] at h
  obtain ⟨⟨hcommands, hevents⟩, hloop⟩ := h
  refine ⟨hcommands, hevents, ?_⟩
  split at hloop
  · assumption
  · cases hloop

/-- Whether a session is there that has not begun. -/
def spawned (sys : System τ) : Bool :=
  sys.runtime.session.any fun s =>
    match s.phase with
    | .spawned => true
    | _ => false

/-- A runtime that is found to have a live task runs. -/
lemma running_of_spawned (hidle : sys.runtime.loop = .receiving) (h : sys.spawned = true) :
    sys.runtime.Running := by
  obtain ⟨s, hs, hspawned⟩ := (Option.any_eq_true _ _).1 h
  refine ⟨s, by rw [Runtime.task_of_receiving hidle, hs], ?_⟩
  unfold Session.Live
  split at hspawned
  · rename_i hphase
    rw [hphase]
    trivial
  · cases hspawned

/-- **An idle event of an earlier session hides a later one**: both queues are empty, the flag is
down, and a card setup is running.

**Proof sketch.** The run is computed. -/
theorem late_idle_hides_session : ∃ sys, Ran plain hostId launch returns sys ∧ sys.Drained ∧
    sys.app.sessionActive = false ∧ sys.runtime.Running := by
  have hrun : ((Machine.exec (step plain hostId) (init launch) returns).any fun sys =>
      sys.drained && !sys.app.sessionActive && sys.spawned) = true := by decide +kernel
  obtain ⟨sys, hexec, hend⟩ := (Option.any_eq_true _ _).1 hrun
  simp only [Bool.and_eq_true, Bool.not_eq_true'] at hend
  obtain ⟨⟨hdrained, hflag⟩, hspawned⟩ := hend
  have hdrained := drained_of hdrained
  exact ⟨sys, hexec, hdrained, hflag, running_of_spawned hdrained.idle hspawned⟩

end Sample

end System

end Duocb
