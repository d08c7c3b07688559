import Duocb.Net.Session.Steps

set_option relaxedAutoImplicit false
set_option autoImplicit false

/-!
# The command loop

The runtime is one loop over the commands of the user interface. It owns at most one session task
and the pairing memory that outlives it. A command that ends or replaces the session cancels its
task first and waits for it, a bounded time; meanwhile the task goes on and no other command is
taken.

A pairing memory is a shared handle: the loop lends it to every task it starts under the same key.
Memories are numbered in the order they are made, so that two tasks have the same claim exactly if
they were lent the memory of the same number.

## Main definitions

* `Duocb.Runtime` — the state of the loop.
* `Duocb.Runtime.command`, `Duocb.Runtime.settle` — what a command does at once, and what it does
  after the old task has ended.
* `Duocb.Runtime.step` — one step of the loop or of its task, and what it puts out.

## Main results

* `Duocb.Runtime.step_cases` — everything a step can do.
* `Duocb.Runtime.exclusive` — there is at most one task.
-/

namespace Duocb

/-- Whether a task has returned; with it went the receiving end of its clip channel. -/
def Phase.isEnded : Phase → Bool
  | .ended => true
  | _ => false

/-- Whether a session of this kind trades cards. -/
def SessionKind.isCardSetup : SessionKind → Bool
  | .server (.cardSetup _ _ _) | .client (.cardSetup _ _ _ _ _) => true
  | _ => false

/-- Whether a session of this kind shows a PIN, and so can be asked for a new one. -/
def SessionKind.showsPin : SessionKind → Bool
  | .server (.cardSetup _ _ _) => true
  | _ => false

/-- Where the command loop waits. It takes no command while it waits for a task to end. -/
inductive Loop where
  /-- For the next command. -/
  | receiving
  /-- For a cancelled task to end, before the command goes on. -/
  | stopping (old : Session) (cmd : UiCommand)
  /-- It has ended. -/
  | ended

/-- The state of the command loop: where it waits, its session task, the pairing memory, and how
many tasks were started and memories were made so far. -/
structure Runtime where
  loop : Loop
  session : Option Session
  memory : Option SessionMemory
  sessions : ℕ
  memories : ℕ

/-- What moves the runtime. The loop and the task run side by side. A task that was cancelled is
waited for, but not for ever. -/
inductive RuntimeLabel where
  /-- It takes a command; `paths` is what a live connection answers about its paths. -/
  | command (cmd : UiCommand) (paths : List String)
  /-- Its task takes a step. -/
  | own (l : SessionLabel)
  /-- The cancelled task has ended. -/
  | joined
  /-- The cancelled task took too long, and is aborted. -/
  | aborted

/-- What a step of the runtime puts out: what others see of its task, the events the loop sends
itself, and for the record the task it started, with the number of its memory and the claim as it
found it, and that it forgot the memory. -/
inductive RuntimeOut where
  | out (sid : ℕ) (o : Out)
  | event (e : NetEvent)
  | started (sid : ℕ) (kind : SessionKind) (memory : ℕ) (claim : PairClaim)
  | forgot
  deriving DecidableEq

namespace Runtime

/-- The loop before its first command. -/
def init : Runtime := ⟨.receiving, none, none, 0, 0⟩

/-- The task that is running: the session's, or the one that is being stopped. -/
def task (r : Runtime) : Option Session :=
  match r.loop with
  | .stopping s _ => some s
  | _ => r.session

/-- The runtime after its task has moved. -/
def withTask (r : Runtime) (s : Session) (memory : SessionMemory) : Runtime :=
  match r.loop with
  | .stopping _ cmd => { r with loop := .stopping s cmd, memory := some memory }
  | _ => { r with session := some s, memory := some memory }

/-- The error of a text that has nowhere to go. -/
def notConnected : String :=
  "Not connected — select each device and press Connect on both first"

/-- Start a session, on the memory at hand if that is the memory of its key. A session of the same
key goes on with its claim and its PINs; any other one starts on a free claim. -/
def startSession (r : Runtime) (kind : SessionKind) : Runtime × List RuntimeOut :=
  let key := sessionKey kind
  let memory := remember r.memory key
  let memories := if r.memory.any fun m => m.key = key then r.memories else r.memories + 1
  (⟨.receiving, some (.start r.sessions kind), some memory, r.sessions + 1, memories⟩,
    [.started r.sessions kind memories memory.claim])

/-- What a command does once no task is left. Stopping forgets the memory, so that the next session
starts anew. -/
def settle (r : Runtime) : UiCommand → Runtime × List RuntimeOut
  | .startServer mode => r.startSession (.server mode)
  | .connect spec => r.startSession (.client spec)
  | .stopServer | .disconnect =>
    ({ r with loop := .receiving, memory := none }, [.forgot, .event (.status .idle)])
  | .shutdown => ({ r with loop := .ended }, [])
  | .refreshPin | .sendClipboard _ | .queryConnPath => ({ r with loop := .receiving }, [])

/-- `stop_session`: cancel the task and wait for it, and then go on with the command. -/
def stopSession (r : Runtime) (cmd : UiCommand) : Runtime × List RuntimeOut :=
  match r.session with
  | some s => ({ r with loop := .stopping { s with cancelled := true } cmd, session := none }, [])
  | none => r.settle cmd

/-- Ask the session for a new PIN. Only a session that shows a PIN can be asked. -/
def refreshPin (r : Runtime) : Runtime × List RuntimeOut :=
  match r.session with
  | some s =>
    if s.kind.showsPin then ({ r with session := some { s with refresh := true } }, [])
    else (r, [.event (.error "No PIN is being published")])
  | none => (r, [.event (.error "No PIN is being published")])

/-- Put a text on the session's clip channel, as long as somebody holds its receiving end. That end
is held until the task has returned, whether or not it still reads. -/
def sendClipboard (r : Runtime) (text : String) : Runtime × List RuntimeOut :=
  match r.session with
  | some s =>
    if s.phase.isEnded then (r, [.event (.error notConnected)])
    else
      ({ r with
          session := some { s with clip := { s.clip with queue := s.clip.queue ++ [text] } } },
        [])
  | none => (r, [.event (.error notConnected)])

/-- Whether a connection is up whose paths can be asked for. It is up while the pump runs. -/
def connected (r : Runtime) : Bool :=
  match r.session with
  | some s => match s.phase with
    | .pumping _ _ _ => true
    | _ => false
  | none => false

/-- What a command does when it is taken. A command that starts or ends a session first stops the
one that runs; the others are done at once. -/
def command (r : Runtime) (cmd : UiCommand) (paths : List String) : Runtime × List RuntimeOut :=
  match cmd with
  | .startServer _ | .connect _ | .stopServer | .disconnect | .shutdown => r.stopSession cmd
  | .refreshPin => r.refreshPin
  | .sendClipboard text => r.sendClipboard text
  | .queryConnPath => (r, [.event (.connPath (if r.connected then paths else []))])

section Step

variable (C : Crypto) (ownId : EndpointId)

/-- One step of the runtime. A step of the task is one of the session machine, on the memory that
the loop has lent it. -/
def step (r : Runtime) : RuntimeLabel → Option (Runtime × List RuntimeOut)
  | .command cmd paths =>
    match r.loop with
    | .receiving => some (r.command cmd paths)
    | _ => none
  | .own l =>
    match r.task, r.memory with
    | some s, some memory =>
      (s.step C ownId memory l).map fun (s', memory', outs) =>
        (r.withTask s' memory', outs.map (.out s.sid))
    | _, _ => none
  | .joined =>
    match r.loop with
    | .stopping s cmd => if s.phase.isEnded then some (r.settle cmd) else none
    | _ => none
  | .aborted =>
    match r.loop with
    | .stopping _ cmd => some (r.settle cmd)
    | _ => none

/-- The runtime after a run, and all it has put out. -/
abbrev Ran (labels : List RuntimeLabel) (r : Runtime) (outs : List RuntimeOut) : Prop :=
  Machine.run (step C ownId) init labels = some (r, outs)

/-! ## What a step can do -/

/-- **Everything a step of the runtime can do.** It is the step function read as a relation, by what
becomes of the session and its memory. -/
inductive Stepped (r : Runtime) : RuntimeLabel → Runtime → List RuntimeOut → Prop where
  /-- Its task moves. -/
  | own (l : SessionLabel) (s s' : Session) (memory memory' : SessionMemory) (outs : List Out)
      (task : r.task = some s) (memory_eq : r.memory = some memory)
      (step : s.step C ownId memory l = some (s', memory', outs)) :
      Stepped r (.own l) (r.withTask s' memory') (outs.map (.out s.sid))
  /-- A command is done at once: a request for the session, or an answer of the loop itself. -/
  | asked (cmd : UiCommand) (paths : List String) (s s' : Session) (idle : r.loop = .receiving)
      (session : r.session = some s) (same : Session.Same s s') (phase : s'.phase = s.phase)
      (attempts : s'.attempts = s.attempts) (publisher : s'.publisher = s.publisher)
      (clip : s'.clip = s.clip ∨ (s.phase.isEnded = false ∧ ∃ text, cmd = .sendClipboard text ∧
        s'.clip = { s.clip with queue := s.clip.queue ++ [text] })) :
      Stepped r (.command cmd paths) { r with session := some s' } []
  | answered (cmd : UiCommand) (paths : List String) (e : NetEvent) (idle : r.loop = .receiving) :
      Stepped r (.command cmd paths) r [.event e]
  /-- The task is cancelled, and the loop waits for it. -/
  | cancels (cmd : UiCommand) (paths : List String) (s : Session) (idle : r.loop = .receiving)
      (session : r.session = some s) :
      Stepped r (.command cmd paths)
        { r with loop := .stopping { s with cancelled := true } cmd, session := none } []
  /-- With no task left, a session starts, -/
  | starts (l : RuntimeLabel) (kind : SessionKind) :
      Stepped r l (r.startSession kind).1 (r.startSession kind).2
  /-- or the memory is forgotten, -/
  | forgets (l : RuntimeLabel) (gone : r.session = none) :
      Stepped r l { r with loop := .receiving, memory := none } [.forgot, .event (.status .idle)]
  /-- or the loop ends, or takes the next command. -/
  | ends (l : RuntimeLabel) (loop : Loop) (gone : r.session = none)
      (free : ∀ s cmd, loop ≠ .stopping s cmd) : Stepped r l { r with loop := loop } []

variable {C ownId} {r r' : Runtime} {l : RuntimeLabel} {outs : List RuntimeOut}

/-- A command that finds no session is one of the steps above.

**Proof sketch.** By the command: it starts a session, or forgets the memory, or does nothing. -/
lemma settle_cases {cmd : UiCommand} (hgone : r.session = none) (h : r.settle cmd = (r', outs)) :
    Stepped C ownId r l r' outs := by
  cases cmd with
  | startServer mode =>
    obtain ⟨rfl, rfl⟩ := Prod.mk.inj h
    exact .starts l (.server mode)
  | connect spec =>
    obtain ⟨rfl, rfl⟩ := Prod.mk.inj h
    exact .starts l (.client spec)
  | stopServer | disconnect =>
    obtain ⟨rfl, rfl⟩ := Prod.mk.inj h
    exact .forgets l hgone
  | shutdown | refreshPin | sendClipboard | queryConnPath =>
    obtain ⟨rfl, rfl⟩ := Prod.mk.inj h
    exact .ends l _ hgone (by simp)

/-- So is a command that stops the session, -/
lemma stopSession_cases {cmd : UiCommand} {paths : List String} (hloop : r.loop = .receiving)
    (h : r.stopSession cmd = (r', outs)) : Stepped C ownId r (.command cmd paths) r' outs := by
  unfold stopSession at h
  split at h
  · rename_i s hs
    obtain ⟨rfl, rfl⟩ := Prod.mk.inj h
    exact .cancels cmd paths s hloop hs
  · rename_i hs
    exact settle_cases hs h

/-- and so is every command.

**Proof sketch.** A command that ends the session goes one way for all of them. The others are taken
apart along the branches of the source. -/
lemma command_cases {cmd : UiCommand} {paths : List String} (hloop : r.loop = .receiving)
    (h : r.command cmd paths = (r', outs)) : Stepped C ownId r (.command cmd paths) r' outs := by
  cases cmd with
  | startServer mode => exact stopSession_cases hloop h
  | connect spec => exact stopSession_cases hloop h
  | stopServer => exact stopSession_cases hloop h
  | disconnect => exact stopSession_cases hloop h
  | shutdown => exact stopSession_cases hloop h
  | refreshPin =>
    simp only [command, refreshPin] at h
    split at h
    · rename_i s hs
      split_ifs at h
      · obtain ⟨rfl, rfl⟩ := Prod.mk.inj h
        exact .asked _ paths s _ hloop hs ⟨rfl, rfl, rfl⟩ rfl rfl rfl (Or.inl rfl)
      · obtain ⟨rfl, rfl⟩ := Prod.mk.inj h
        exact .answered _ paths _ hloop
    · obtain ⟨rfl, rfl⟩ := Prod.mk.inj h
      exact .answered _ paths _ hloop
  | sendClipboard text =>
    simp only [command, sendClipboard] at h
    split at h
    · rename_i s hs
      split_ifs at h with hended
      · obtain ⟨rfl, rfl⟩ := Prod.mk.inj h
        exact .answered _ paths _ hloop
      · obtain ⟨rfl, rfl⟩ := Prod.mk.inj h
        exact .asked _ paths s _ hloop hs ⟨rfl, rfl, rfl⟩ rfl rfl rfl
          (Or.inr ⟨by simpa using hended, text, rfl, rfl⟩)
    · obtain ⟨rfl, rfl⟩ := Prod.mk.inj h
      exact .answered _ paths _ hloop
  | queryConnPath =>
    obtain ⟨rfl, rfl⟩ := Prod.mk.inj h
    exact .answered _ paths _ hloop

/-- When the task moves, it takes one of its own steps on the memory at hand. -/
lemma own_cases {l : SessionLabel} (h : r.step C ownId (.own l) = some (r', outs)) :
    ∃ s s' memory memory' os, r.task = some s ∧ r.memory = some memory ∧
      s.step C ownId memory l = some (s', memory', os) ∧ r' = r.withTask s' memory' ∧
        outs = os.map (.out s.sid) := by
  simp only [step] at h
  split at h
  · rename_i s memory hs hm
    obtain ⟨⟨s', memory', os⟩, hstep, hres⟩ := Option.map_eq_some_iff.1 h
    obtain ⟨rfl, rfl⟩ := Prod.mk.inj hres
    exact ⟨s, s', memory, memory', os, hs, hm, hstep, rfl, rfl⟩
  · cases h

/-- While a task is being stopped the loop has no session. -/
def Exclusive (r : Runtime) : Prop := ∀ s cmd, r.loop = .stopping s cmd → r.session = none

/-- **The inversion rule of the runtime.**

**Proof sketch.** A command and a step of the task have lemmas of their own. The rest is the loop
that starts a session or ends one. -/
theorem step_cases (hex : r.Exclusive) (h : r.step C ownId l = some (r', outs)) :
    Stepped C ownId r l r' outs := by
  cases l with
  | command cmd paths =>
    simp only [step] at h
    split at h
    · rename_i hloop
      exact command_cases hloop (Option.some.inj h)
    · cases h
  | own l =>
    obtain ⟨s, s', memory, memory', os, hs, hm, hstep, rfl, rfl⟩ := own_cases h
    exact .own l s s' memory memory' os hs hm hstep
  | joined =>
    simp only [step] at h
    split at h
    · rename_i s cmd hloop
      split_ifs at h
      exact settle_cases (hex s cmd hloop) (Option.some.inj h)
    · cases h
  | aborted =>
    simp only [step] at h
    split at h
    · rename_i s cmd hloop
      exact settle_cases (hex s cmd hloop) (Option.some.inj h)
    · cases h

/-! ## The task after each kind of step -/

/-- The task that has moved is the task, and the memory is the one it left.

**Proof sketch.** By where the loop keeps the task: it is the session, or the one that is waited
for. -/
lemma withTask_task (r : Runtime) (s : Session) (memory : SessionMemory) :
    (r.withTask s memory).task = some s ∧ (r.withTask s memory).memory = some memory ∧
      (r.withTask s memory).memories = r.memories ∧
      (r.withTask s memory).sessions = r.sessions := by
  unfold withTask
  split
  · exact ⟨rfl, rfl, rfl, rfl⟩
  · rename_i hloop
    refine ⟨?_, rfl, rfl, rfl⟩
    unfold task
    split
    · rename_i s' cmd h
      exact absurd h (hloop s' cmd)
    · rfl

/-- A loop that receives has the task of its session. -/
lemma task_of_receiving (h : r.loop = .receiving) : r.task = r.session := by
  simp [task, h]

/-- A step keeps the loop to one task: while it waits for one to return, there is no other.

**Proof sketch.** By the list of the steps. Only a command that cancels a task makes the loop wait,
and it takes the session away. -/
lemma exclusive_of_step (hex : r.Exclusive) (h : r.step C ownId l = some (r', outs)) :
    r'.Exclusive := by
  intro s cmd hloop
  cases step_cases hex h with
  | own l s₁ s' memory memory' outs htask hm hstep =>
    unfold withTask at hloop ⊢
    cases hr : r.loop with
    | stopping s₂ cmd₂ => exact hex s₂ cmd₂ hr
    | receiving => simp [hr] at hloop
    | ended => simp [hr] at hloop
  | asked _ _ _ _ hidle => rw [hidle] at hloop; cases hloop
  | answered _ _ _ hidle => rw [hidle] at hloop; cases hloop
  | cancels => rfl
  | starts => cases hloop
  | forgets => cases hloop
  | ends loop _ hgone hfree => exact hgone

/-- Every reachable state has at most one task. -/
lemma exclusive {labels : List RuntimeLabel} (h : Ran C ownId labels r outs) : r.Exclusive :=
  Machine.run_invariant (I := fun r _ => r.Exclusive)
    (fun _ _ _ _ _ hI hs => exclusive_of_step hI hs) (fun _ _ h => by cases h) h

end Step

/-- A card to try a card setup with. -/
def setupCard : IdentityCard := ⟨.filled 0, "host", 0, 10, "card"⟩

end Runtime

end Duocb
