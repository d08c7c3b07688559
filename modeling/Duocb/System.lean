import Duocb.App
import Duocb.Net.Runtime

set_option relaxedAutoImplicit false
set_option autoImplicit false

/-!
# The application and the runtime together

The application and the runtime run side by side. Commands wait in one queue until the command loop
takes them, events in another until the application drains them, and meanwhile both sides go on. No
event says which session it comes from.

The record beside them does say it. Sessions are numbered from one, in the order in which the
application asks for them, and so the number of sessions that had been started when an event was put
out is the number of the session that was running.

## Main definitions

* `Duocb.System`, `Duocb.System.step` — both sides, the two queues, and the record.
* `Duocb.System.pending` — the sessions that were asked for and have not started.
* `Duocb.App.Acted` — what an action of the user can do to the session and the boxes.

## Main results

* `Duocb.App.acted` — every action is one of the list.
* `Duocb.Runtime.queue_of_step` — sessions start in the order in which they were asked for.
* `Duocb.System.step_cases` — everything a step of the system can do.
* `Duocb.System.numbered_of_step` — how many sessions were asked for.
-/

namespace Duocb

/-- What a command starts. -/
def UiCommand.kind? : UiCommand → Option SessionKind
  | .startServer mode => some (.server mode)
  | .connect spec => some (.client spec)
  | _ => none

/-- The text a command sends. -/
def UiCommand.text? : UiCommand → Option String
  | .sendClipboard text => some text
  | _ => none

/-- Whether a command ends the session. -/
def UiCommand.isStop : UiCommand → Bool
  | .stopServer | .disconnect => true
  | _ => false

/-! ## What an action does to the session and the boxes -/

namespace App

variable {τ : Type} {a a' : App τ}

/-- Two states of the application that agree on the session and on the boxes. These are the fields
that the results about the whole system speak of. -/
structure Alike (a a' : App τ) : Prop where
  sessionActive : a'.sessionActive = a.sessionActive
  status : a'.status = a.status
  inbox : a'.inbox = a.inbox
  outbox : a'.outbox = a.outbox
  pendingOutbox : a'.pendingOutbox = a.pendingOutbox
  boxPeer : a'.boxPeer = a.boxPeer

/-- The boxes are empty, and nothing is pending. -/
structure Cleared (a : App τ) : Prop where
  inbox : a.inbox = []
  outbox : a.outbox = none
  pendingOutbox : a.pendingOutbox = none

/-- The peer of the boxes stays, and so do the boxes, unless the inbox is cleared. -/
structure SameBoxes (a a' : App τ) : Prop where
  inbox : a'.inbox = a.inbox ∨ a'.inbox = []
  outbox : a'.outbox = a.outbox
  pendingOutbox : a'.pendingOutbox = a.pendingOutbox
  boxPeer : a'.boxPeer = a.boxPeer

/-- A command that neither starts a session nor sends a text. -/
def Plain (cmd : UiCommand) : Prop := cmd.kind? = none ∧ cmd.text? = none ∧ cmd ≠ .shutdown

/-- **All that an action can do** to the session and the boxes. It says of each action what it makes
of the flag, the status and the boxes, and which commands it sends. -/
inductive Acted (a : App τ) : App τ → List UiCommand → Prop where
  /-- It leaves both alone; it may clear the inbox, and ask for the end of the session. -/
  | quiet (a' : App τ) (cmds : List UiCommand) (active : a'.sessionActive = a.sessionActive)
      (status : a'.status = a.status) (boxes : SameBoxes a a') (plain : ∀ c ∈ cmds, Plain c) :
      Acted a a' cmds
  /-- It sends a text, while the application shows that it is connected. -/
  | sends (text : String) (connected : a.status = .connected) (free : a.pendingOutbox = none) :
      Acted a { a with pendingOutbox := some text } [.sendClipboard text]
  /-- It starts a card setup. -/
  | setsUp (a' : App τ) (cmd : UiCommand) (kind : SessionKind) (starts : cmd.kind? = some kind)
      (setup : kind.peer = none) (active : a'.sessionActive = true) (status : a'.status = a.status)
      (boxes : SameBoxes a a') : Acted a a' [cmd]
  /-- It starts a clipboard session with a peer, who has the boxes from then on. -/
  | connects (a' : App τ) (cmd : UiCommand) (kind : SessionKind) (peer : PublicKey)
      (starts : cmd.kind? = some kind) (for_ : kind.peer = some peer)
      (active : a'.sessionActive = true) (status : a'.status = a.status)
      (owner : a'.boxPeer = some peer)
      (boxes : SameBoxes a a' ∨ (a.boxPeer ≠ some peer ∧ a'.Cleared)) : Acted a a' [cmd]
  /-- It takes the boxes away from their peer. -/
  | disowns (a' : App τ) (active : a'.sessionActive = a.sessionActive)
      (status : a'.status = a.status) (owner : a'.boxPeer = none) (boxes : a'.Cleared) :
      Acted a a' []

/-- An application is like itself. -/
lemma Alike.refl (a : App τ) : Alike a a := ⟨rfl, rfl, rfl, rfl, rfl, rfl⟩

/-- Likeness is passed on. -/
lemma Alike.trans {a a' a'' : App τ} (h : Alike a a') (h' : Alike a' a'') : Alike a a'' :=
  ⟨h'.1.trans h.1, h'.2.trans h.2, h'.3.trans h.3, h'.4.trans h.4, h'.5.trans h.5, h'.6.trans h.6⟩

/-- Applications that are alike have the same boxes. -/
lemma Alike.sameBoxes (h : Alike a a') : SameBoxes a a' := ⟨Or.inl h.3, h.4, h.5, h.6⟩

/-- An action that sends no command and agrees on the session and the boxes. -/
lemma Acted.of_alike (h : Alike a a') : Acted a a' [] :=
  .quiet a' [] h.sessionActive h.status h.sameBoxes (by simp)

/-- Saving the settings may report a failure. -/
lemma Alike.saved (h : Alike a a') (failure : Option String) :
    Alike a (a'.saveConfigureConfig failure) := by
  cases failure with
  | none => exact h
  | some e => exact ⟨h.1, h.2, h.3, h.4, h.5, h.6⟩

/-- Copying may report a failure. -/
lemma Alike.copied (h : Alike a a') (failure : Option String) :
    Alike a (a'.copyToClipboard failure) := by
  cases failure with
  | none => exact h
  | some e => exact ⟨h.1, h.2, h.3, h.4, h.5, h.6⟩

/-- Renewing the own card makes an application that is alike. -/
lemma renewSelfCardIfStale_alike (a : App τ) (w : Wall) (minted : Option IdentityCard)
    (failure : Option String) : Alike a (a.renewSelfCardIfStale w minted failure) := by
  unfold renewSelfCardIfStale
  split
  · exact .refl a
  · apply Alike.saved
    exact ⟨rfl, rfl, rfl, rfl, rfl, rfl⟩

/-- So does storing a peer's card. -/
lemma storePeerCard_alike (a : App τ) (w : Wall) (card : IdentityCard) (failure : Option String) :
    Alike a (a.storePeerCard w card failure).2 := by
  unfold storePeerCard
  split_ifs
  · exact ⟨rfl, rfl, rfl, rfl, rfl, rfl⟩
  · exact ⟨rfl, rfl, rfl, rfl, rfl, rfl⟩
  · apply Alike.saved
    exact ⟨rfl, rfl, rfl, rfl, rfl, rfl⟩
  · exact ⟨rfl, rfl, rfl, rfl, rfl, rfl⟩
  · apply Alike.saved
    exact ⟨rfl, rfl, rfl, rfl, rfl, rfl⟩

/-- A stop command of either half is plain. -/
lemma plain_stop (hosting : Bool) :
    Plain (if hosting then UiCommand.stopServer else .disconnect) := by
  cases hosting <;> exact ⟨rfl, rfl, by simp⟩

/-- All that stopping a session sends is plain. -/
lemma stopSession_plain (a : App τ) : ∀ c ∈ a.stopSession, Plain c := by
  unfold stopSession
  split
  · intro c hc
    rw [List.mem_singleton.1 hc]
    exact plain_stop _
  · simp

/-- A text that is sent while connected is one of the actions above. -/
lemma sendText_acted (hconn : a.status = .connected) (text : String) :
    Acted a (a.sendText text).1 (a.sendText text).2 := by
  unfold sendText
  split_ifs with h
  · exact .of_alike (.refl a)
  · exact .sends text hconn (by simpa using (not_or.1 h).2)

/-- The session that is planned is for the selected peer. -/
lemma sessionPlan_kind {hosting : Bool} {cmd : UiCommand} {card : IdentityCard}
    (hplan : a.sessionPlan = some (hosting, cmd)) (hcard : a.selectedPeerCard = some card) :
    ∃ kind, cmd.kind? = some kind ∧ kind.peer = some card.publicKey := by
  obtain ⟨identity, -, hmap⟩ := Option.bind_eq_some_iff.1 hplan
  rw [hcard, Option.map_some, Option.some.injEq] at hmap
  split at hmap
  · obtain ⟨-, rfl⟩ := Prod.mk.inj hmap
    exact ⟨_, rfl, rfl⟩
  · obtain ⟨-, rfl⟩ := Prod.mk.inj hmap
    exact ⟨_, rfl, rfl⟩

/-- What starting a clipboard session comes to: nothing, or a session with a peer who has the boxes
from then on. -/
def Started (a b : App τ) (cmds : List UiCommand) : Prop :=
  (cmds = [] ∧ Alike a b) ∨ ∃ cmd kind peer, cmds = [cmd] ∧ cmd.kind? = some kind ∧
    kind.peer = some peer ∧ b.sessionActive = true ∧ b.status = a.status ∧ b.boxPeer = some peer ∧
    (SameBoxes a b ∨ (a.boxPeer ≠ some peer ∧ b.Cleared))

/-- What is sent to start a session starts one, and the boxes are those of its peer.

**Proof sketch.** By the branches of the action: an expired card starts nothing, and the boxes are
kept for the same peer and cleared for another. -/
lemma startClipboardSession_started {w : Wall} {started : Bool} {b : App τ} {cmds : List UiCommand}
    (h : a.startClipboardSession w = (started, b, cmds)) : Started a b cmds := by
  unfold startClipboardSession at h
  split at h
  · rename_i hosting cmd card hplan hcard
    obtain ⟨kind, hkind, hpeer⟩ := sessionPlan_kind hplan hcard
    split_ifs at h with hexpired hsame
    · obtain ⟨-, rfl, rfl⟩ := by simpa using h
      exact Or.inl ⟨rfl, rfl, rfl, rfl, rfl, rfl, rfl⟩
    · obtain ⟨-, rfl, rfl⟩ := by simpa using h
      exact Or.inr ⟨cmd, kind, card.publicKey, rfl, hkind, hpeer, rfl, rfl, rfl,
        Or.inl ⟨Or.inl rfl, rfl, rfl, hsame.symm⟩⟩
    · obtain ⟨-, rfl, rfl⟩ := by simpa using h
      exact Or.inr ⟨cmd, kind, card.publicKey, rfl, hkind, hpeer, rfl, rfl, rfl,
        Or.inr ⟨hsame, rfl, rfl, rfl⟩⟩
  · obtain ⟨-, rfl, rfl⟩ := by simpa using h
    exact Or.inl ⟨rfl, .refl a⟩

/-- What comes before the start and after it may change other fields of the state.

**Proof sketch.** What is alike before and after is put together with what the start does, field by
field. -/
lemma Started.acted {a₁ b b' : App τ} {cmds : List UiCommand} (h : Started a₁ b cmds)
    (hpre : Alike a a₁) (hpost : Alike b b') : Acted a b' cmds := by
  rcases h with ⟨rfl, h⟩ | ⟨cmd, kind, peer, rfl, hkind, hpeer, hactive, hstatus, howner, hboxes⟩
  · exact .of_alike ((hpre.trans h).trans hpost)
  · refine .connects b' cmd kind peer hkind hpeer (hpost.1.trans hactive)
      (hpost.2.trans (hstatus.trans hpre.2)) (hpost.6.trans howner) ?_
    rcases hboxes with hboxes | ⟨hne, hboxes⟩
    · refine Or.inl ⟨?_, ?_, ?_, ?_⟩
      · rw [hpost.3, ← hpre.3]
        exact hboxes.inbox
      · exact hpost.4.trans (hboxes.outbox.trans hpre.4)
      · exact hpost.5.trans (hboxes.pendingOutbox.trans hpre.5)
      · exact hpost.6.trans (hboxes.boxPeer.trans hpre.6)
    · refine Or.inr ⟨?_, hpost.3.trans hboxes.1, hpost.4.trans hboxes.2, hpost.5.trans hboxes.3⟩
      rw [← hpre.6]
      exact hne

/-- **Every action is one of the list.**

**Proof sketch.** By the action. The screens that only move the focus are alike to the application
before; an action that starts or stops a session has a constructor of its own. -/
theorem acted {w : Wall} {u : UserAction} (h : a.enabled u = true) :
    Acted a (a.act w u).1 (a.act w u).2 := by
  cases u with
  | goBack => exact .quiet _ _ rfl rfl ⟨Or.inl rfl, rfl, rfl, rfl⟩ a.stopSession_plain
  | useImported imported failure =>
    cases imported with
    | none => exact .of_alike (.refl a)
    | some identity =>
      apply Acted.of_alike
      apply Alike.saved
      exact ⟨rfl, rfl, rfl, rfl, rfl, rfl⟩
  | saveName name minted failure =>
    show Acted a (a.saveName name minted failure) []
    unfold saveName
    split
    · cases failure <;> exact .of_alike ⟨rfl, rfl, rfl, rfl, rfl, rfl⟩
    · exact .of_alike (.refl a)
  | copyCard minted failure copyFailure =>
    exact .of_alike ((a.renewSelfCardIfStale_alike w minted failure).copied copyFailure)
  | copyText copyFailure => exact .of_alike ((Alike.refl a).copied copyFailure)
  | movePeerSelection delta =>
    show Acted a (a.movePeerSelection delta) []
    unfold movePeerSelection
    dsimp only
    split <;> exact .of_alike ⟨rfl, rfl, rfl, rfl, rfl, rfl⟩
  | resetIdentity fresh failure =>
    cases failure <;> exact .disowns _ rfl rfl rfl ⟨rfl, rfl, rfl⟩
  | importPeerCard pasted failure =>
    cases pasted with
    | none => exact .of_alike ⟨rfl, rfl, rfl, rfl, rfl, rfl⟩
    | some card => exact .of_alike (a.storePeerCard_alike w card failure)
  | removePeer key failure =>
    show Acted a (a.removePeer key failure) []
    unfold removePeer
    dsimp only
    split_ifs
    · exact .of_alike ⟨rfl, rfl, rfl, rfl, rfl, rfl⟩
    · cases failure <;> exact .disowns _ rfl rfl rfl ⟨rfl, rfl, rfl⟩
    · cases failure <;> exact .disowns _ rfl rfl rfl ⟨rfl, rfl, rfl⟩
    · cases failure <;> exact .of_alike ⟨rfl, rfl, rfl, rfl, rfl, rfl⟩
    · cases failure <;> exact .of_alike ⟨rfl, rfl, rfl, rfl, rfl, rfl⟩
  | connectSelected =>
    show Acted a (a.connectSelectedPeer w).1 (a.connectSelectedPeer w).2
    unfold connectSelectedPeer
    split <;> rename_i b cmds hstart
    · exact (startClipboardSession_started hstart).acted (.refl a) ⟨rfl, rfl, rfl, rfl, rfl, rfl⟩
    · exact (startClipboardSession_started hstart).acted (.refl a) (.refl b)
  | openCardSetup minted failure =>
    show Acted a (a.openCardSetup w minted failure) []
    unfold openCardSetup
    split
    · exact .of_alike (.refl a)
    · have hrenewed := a.renewSelfCardIfStale_alike w minted failure
      exact .of_alike (hrenewed.trans ⟨rfl, rfl, rfl, rfl, rfl, rfl⟩)
  | hostCardSetup =>
    show Acted a a.hostCardSetup.1 a.hostCardSetup.2
    unfold hostCardSetup
    split
    · exact .of_alike (.refl a)
    · exact .setsUp _ _ _ rfl rfl rfl rfl ⟨Or.inl rfl, rfl, rfl, rfl⟩
  | joinCardSetup pin ip label =>
    show Acted a (a.joinCardSetup pin ip label).1 (a.joinCardSetup pin ip label).2
    unfold joinCardSetup
    split
    · exact .of_alike ⟨rfl, rfl, rfl, rfl, rfl, rfl⟩
    · rename_i spec hspec
      have hsetup : (SessionKind.client spec).peer = none := by
        obtain ⟨canonicalPin, selfCard, target, rfl⟩ := cardSetupDialSpec_eq_some hspec
        rfl
      exact .setsUp _ _ _ rfl hsetup rfl rfl ⟨Or.inl rfl, rfl, rfl, rfl⟩
  | importReceivedCard failure =>
    show Acted a (a.importReceivedCard w failure) []
    unfold importReceivedCard
    split
    · exact .of_alike (.refl a)
    · rename_i card hcard
      have hstored :=
        ({ a with pendingPeerCard := none } : App τ).storePeerCard_alike w card failure
      split <;> rename_i b hb <;> rw [hb] at hstored
      · exact .of_alike ⟨hstored.1, hstored.2, hstored.3, hstored.4, hstored.5, hstored.6⟩
      · exact .of_alike ⟨hstored.1, hstored.2, hstored.3, hstored.4, hstored.5, hstored.6⟩
  | retryConnect =>
    show Acted a (a.retryConnection w).1 (a.retryConnection w).2
    unfold retryConnection
    split_ifs
    · exact (startClipboardSession_started rfl).acted ⟨rfl, rfl, rfl, rfl, rfl, rfl⟩ (.refl _)
    · exact .of_alike (.refl a)
  | refreshPin =>
    refine .quiet _ _ rfl rfl ⟨Or.inl rfl, rfl, rfl, rfl⟩ (List.forall_mem_singleton.2 ?_)
    exact ⟨rfl, rfl, by simp⟩
  | sendClipboard read =>
    have hconn : a.status = .connected := by simpa [enabled] using h
    show Acted a (a.sendClipboard read).1 (a.sendClipboard read).2
    unfold sendClipboard
    split
    · split_ifs
      · exact .of_alike ⟨rfl, rfl, rfl, rfl, rfl, rfl⟩
      · exact .of_alike (.refl a)
      · exact sendText_acted hconn _
    · exact .of_alike ⟨rfl, rfl, rfl, rfl, rfl, rfl⟩
  | composeSend draft => exact sendText_acted (by simpa [enabled] using h) draft
  | clearInbox => exact .quiet _ _ rfl rfl ⟨Or.inr rfl, rfl, rfl, rfl⟩ fun _ hc => by cases hc
  | queryConnPath =>
    refine .quiet _ _ rfl rfl ⟨Or.inl rfl, rfl, rfl, rfl⟩ (List.forall_mem_singleton.2 ?_)
    exact ⟨rfl, rfl, by simp⟩
  | _ => exact .of_alike ⟨rfl, rfl, rfl, rfl, rfl, rfl⟩

end App

/-! ## The sessions the loop starts -/

/-- The text a pump of this task is in the middle of writing. -/
def Session.writing (s : Session) : Option String :=
  match s.phase with
  | .pumping _ _ p => p.writer.text?
  | _ => none

/-- The commands a step of the runtime takes off its queue. -/
def RuntimeLabel.taken : RuntimeLabel → List UiCommand
  | .command cmd _ => [cmd]
  | _ => []

namespace Runtime

/-- The session the loop has taken the command for and has not started yet, if there is one. -/
def held (r : Runtime) : List SessionKind :=
  match r.loop with
  | .stopping _ cmd => cmd.kind?.toList
  | _ => []

/-- The peer of the session that runs. -/
def peer (r : Runtime) : Option PublicKey := r.task.bind fun s => s.kind.peer

variable {C : Crypto} {ownId : EndpointId} {r r' : Runtime} {l : RuntimeLabel}
  {outs : List RuntimeOut}

/-- Settling a command starts the session that it asks for, or holds it back. -/
lemma settle_queue {cmd : UiCommand} (h : r.settle cmd = (r', outs)) :
    (∃ kind, cmd.kind?.toList = [kind] ∧ (r', outs) = r.startSession kind) ∨
      (r'.held = cmd.kind?.toList ∧ r'.sessions = r.sessions) := by
  cases cmd with
  | startServer mode => exact Or.inl ⟨_, rfl, h.symm⟩
  | connect spec => exact Or.inl ⟨_, rfl, h.symm⟩
  | _ =>
    obtain ⟨rfl, rfl⟩ := Prod.mk.inj h
    exact Or.inr ⟨rfl, rfl⟩

/-- So does stopping the session for a command. -/
lemma stopSession_queue {cmd : UiCommand} (h : r.stopSession cmd = (r', outs)) :
    (∃ kind, cmd.kind?.toList = [kind] ∧ (r', outs) = r.startSession kind) ∨
      (r'.held = cmd.kind?.toList ∧ r'.sessions = r.sessions) := by
  unfold stopSession at h
  split at h
  · obtain ⟨rfl, rfl⟩ := Prod.mk.inj h
    exact Or.inr ⟨rfl, rfl⟩
  · exact settle_queue h

/-- **Sessions start in the order in which they were asked for.** A step of the runtime starts the
session it has the command for, or it keeps the command for a session that it has taken.

**Proof sketch.** By the state of the loop and the command that it takes. A command that starts a
session does so at once if there is no task to stop, and is held until the task has ended otherwise.
-/
theorem queue_of_step (h : r.step C ownId l = some (r', outs)) :
    (∃ kind, r.held ++ l.taken.filterMap UiCommand.kind? = [kind] ∧
      (r', outs) = r.startSession kind) ∨
    (r'.held = r.held ++ l.taken.filterMap UiCommand.kind? ∧ r'.sessions = r.sessions) := by
  cases l with
  | command cmd paths =>
    simp only [step] at h
    split at h
    · rename_i hloop
      have hheld : r.held = [] := by simp [held, hloop]
      have htaken : (RuntimeLabel.command cmd paths).taken.filterMap UiCommand.kind? =
          cmd.kind?.toList := by
        simp only [RuntimeLabel.taken, List.filterMap_cons, List.filterMap_nil]
        cases cmd.kind? <;> rfl
      rw [hheld, htaken, List.nil_append]
      have hcmd : r.command cmd paths = (r', outs) := Option.some.inj h
      cases cmd with
      | startServer mode => exact stopSession_queue hcmd
      | connect spec => exact stopSession_queue hcmd
      | stopServer => exact stopSession_queue hcmd
      | disconnect => exact stopSession_queue hcmd
      | shutdown => exact stopSession_queue hcmd
      | refreshPin =>
        right
        simp only [command, refreshPin] at hcmd
        split at hcmd
        · split_ifs at hcmd <;> obtain ⟨rfl, rfl⟩ := Prod.mk.inj hcmd
          · exact ⟨hheld, rfl⟩
          · exact ⟨hheld, rfl⟩
        · obtain ⟨rfl, rfl⟩ := Prod.mk.inj hcmd
          exact ⟨hheld, rfl⟩
      | sendClipboard text =>
        right
        simp only [command, sendClipboard] at hcmd
        split at hcmd
        · split_ifs at hcmd <;> obtain ⟨rfl, rfl⟩ := Prod.mk.inj hcmd
          · exact ⟨hheld, rfl⟩
          · exact ⟨hheld, rfl⟩
        · obtain ⟨rfl, rfl⟩ := Prod.mk.inj hcmd
          exact ⟨hheld, rfl⟩
      | queryConnPath =>
        obtain ⟨rfl, rfl⟩ := Prod.mk.inj hcmd
        exact Or.inr ⟨hheld, rfl⟩
    · cases h
  | own a =>
    obtain ⟨s, s', memory, memory', os, -, -, -, rfl, rfl⟩ := own_cases h
    refine Or.inr ⟨?_, (withTask_task r s' memory').2.2.2⟩
    simp only [RuntimeLabel.taken, List.filterMap_nil, List.append_nil]
    unfold withTask held
    cases r.loop <;> rfl
  | joined =>
    simp only [step] at h
    split at h
    · rename_i s cmd hloop
      split_ifs at h
      have hheld : r.held = cmd.kind?.toList := by simp [held, hloop]
      rw [hheld]
      simpa [RuntimeLabel.taken] using settle_queue (Option.some.inj h)
    · cases h
  | aborted =>
    simp only [step] at h
    split at h
    · rename_i s cmd hloop
      have hheld : r.held = cmd.kind?.toList := by simp [held, hloop]
      rw [hheld]
      simpa [RuntimeLabel.taken] using settle_queue (Option.some.inj h)
    · cases h

end Runtime

/-! ## The system -/

/-- When an item was stamped, and for the record the peer of the session that it came from. -/
structure Stamp (τ : Type) where
  time : τ
  peer : Option PublicKey
  deriving DecidableEq

/-- An event on its way to the application. For the record: the number and the peer of the session
that was running when it was put out, and the text that was being written. -/
structure Posted where
  event : NetEvent
  session : ℕ
  peer : Option PublicKey
  text : Option String
  deriving DecidableEq

namespace Runtime

/-- The events a step puts out, with what the record says of them. -/
def posts (r : Runtime) (outs : List RuntimeOut) : List Posted :=
  outs.filterMap fun
    | .out _ (.event e) | .event e => some ⟨e, r.sessions, r.peer, r.task.bind Session.writing⟩
    | _ => none

/-- The clipboard frames a step writes, with the peer of the session. -/
def writes (r : Runtime) (outs : List RuntimeOut) : List (Option PublicKey × Frame) :=
  outs.filterMap fun
    | .out _ (.frame _ f) => some (r.peer, f)
    | _ => none

end Runtime

/-- What a launched application is configured with. It is what the first process of a configuration
reads, before anything has happened. -/
structure Launch where
  channel : SignalChannel
  identity : Identity
  savedName : Option String
  deviceSuffix : String
  selfCard : Option IdentityCard
  peers : List IdentityCard

/-- The application that is launched. -/
def Launch.app {τ : Type} (c : Launch) : App τ :=
  .init c.channel c.identity c.savedName c.deviceSuffix c.selfCard c.peers

/-- The application and the runtime, and the two queues between them. For the record: how many
sessions the application has asked for, how many of them before the boxes last changed hands and
before it last sent a text, and the frames that were written. -/
structure System (τ : Type) where
  app : App (Stamp τ)
  commands : List UiCommand
  runtime : Runtime
  events : List Posted
  asked : ℕ
  handed : ℕ
  sentAt : ℕ
  written : List (Option PublicKey × Frame)

/-- What moves the system. The three run side by side, and meet in the two queues. -/
inductive SystemLabel (τ : Type) where
  /-- The user acts. -/
  | user (w : Wall) (u : UserAction)
  /-- The application drains an event. -/
  | drain (now : τ)
  /-- The runtime moves; a command it takes is the first one in its queue. -/
  | net (l : RuntimeLabel)

namespace System

variable {τ : Type}

/-- Before anything has happened. -/
def init (c : Launch) : System τ := ⟨c.app, [], .init, [], 0, 0, 0, []⟩

/-- The system after an action of the user. The commands are queued; how many sessions were asked
for, and since when the boxes are whose, is recorded beside it. -/
def afterAct (sys : System τ) (app : App (Stamp τ)) (cmds : List UiCommand) : System τ where
  app := app
  commands := sys.commands ++ cmds
  runtime := sys.runtime
  events := sys.events
  asked := sys.asked + (cmds.filterMap UiCommand.kind?).length
  handed := if app.boxPeer = sys.app.boxPeer then sys.handed else sys.asked
  sentAt := if (cmds.filterMap UiCommand.text?).isEmpty then sys.sentAt else sys.asked
  written := sys.written

/-- The system after an event was drained. -/
def afterDrain (sys : System τ) (now : τ) (e : Posted) (rest : List Posted) : System τ :=
  { sys with app := sys.app.applyEvent ⟨now, e.peer⟩ e.event, events := rest }

/-- The system after a step of the runtime. The events are queued with their session, and the frames
of the clipboard are recorded with the peer that they were written to. -/
def afterRun (sys : System τ) (rest : List UiCommand) (r : Runtime) (outs : List RuntimeOut) :
    System τ :=
  { sys with
    commands := rest
    runtime := r
    events := sys.events ++ sys.runtime.posts outs
    written := sys.written ++ sys.runtime.writes outs }

section Step

variable (C : Crypto) (ownId : EndpointId)

/-- One step of the system. The application acts as its window lets the user act, and the runtime
takes commands in the order of the queue. -/
def step (sys : System τ) : SystemLabel τ → Option (System τ)
  | .user w u =>
    if sys.app.enabled u then
      some (sys.afterAct (sys.app.act w u).1 (sys.app.act w u).2)
    else none
  | .drain now =>
    match sys.events with
    | e :: rest => some (sys.afterDrain now e rest)
    | [] => none
  | .net l =>
    if l.taken.isPrefixOf sys.commands then
      (sys.runtime.step C ownId l).map fun (r, outs) =>
        sys.afterRun (sys.commands.drop l.taken.length) r outs
    else none

/-- The system after a run. -/
abbrev Ran (c : Launch) (labels : List (SystemLabel τ)) (sys : System τ) : Prop :=
  Machine.exec (step C ownId) (init c) labels = some sys

/-- **Everything a step of the system can do.** It is the step function read as a relation, with the
inversion rule of the application built in. -/
inductive Stepped (sys : System τ) : SystemLabel τ → System τ → Prop where
  /-- The user acts. -/
  | acts (w : Wall) (u : UserAction) (app : App (Stamp τ)) (cmds : List UiCommand)
      (act : sys.app.act w u = (app, cmds)) (acted : sys.app.Acted app cmds) :
      Stepped sys (.user w u) (sys.afterAct app cmds)
  /-- An event is drained. -/
  | drains (now : τ) (e : Posted) (rest : List Posted) (events : sys.events = e :: rest) :
      Stepped sys (.drain now) (sys.afterDrain now e rest)
  /-- The runtime moves. -/
  | runs (l : RuntimeLabel) (rest : List UiCommand) (r : Runtime) (outs : List RuntimeOut)
      (commands : sys.commands = l.taken ++ rest)
      (step : sys.runtime.step C ownId l = some (r, outs)) :
      Stepped sys (.net l) (sys.afterRun rest r outs)

variable {C ownId} {sys sys' : System τ} {l : SystemLabel τ}

/-- The inversion rule of the system.

**Proof sketch.** By the label: each of the guards of a step becomes a premise. -/
theorem step_cases (h : sys.step C ownId l = some sys') : Stepped C ownId sys l sys' := by
  cases l with
  | user w u =>
    simp only [step] at h
    split_ifs at h with henabled
    obtain rfl := Option.some.inj h
    exact .acts w u _ _ rfl (App.acted henabled)
  | drain now =>
    simp only [step] at h
    split at h
    · rename_i e rest hevents
      obtain rfl := Option.some.inj h
      exact .drains now e rest hevents
    · cases h
  | net l =>
    simp only [step] at h
    split_ifs at h with htaken
    obtain ⟨⟨r, outs⟩, hstep, rfl⟩ := Option.map_eq_some_iff.1 h
    obtain ⟨rest, hrest⟩ := List.isPrefixOf_iff_prefix.1 htaken
    rw [← hrest, List.drop_left]
    exact .runs l rest r outs hrest.symm hstep

/-! ## The sessions that were asked for -/

/-- The sessions that were asked for and have not started, in order. -/
def pending (sys : System τ) : List SessionKind :=
  sys.runtime.held ++ sys.commands.filterMap UiCommand.kind?

/-- An action adds the sessions that its commands ask for to the pending ones. -/
lemma pending_afterAct (sys : System τ) (app : App (Stamp τ)) (cmds : List UiCommand) :
    (sys.afterAct app cmds).pending = sys.pending ++ cmds.filterMap UiCommand.kind? := by
  simp [pending, afterAct]

/-- A step of the runtime starts the first of the pending sessions, or leaves them pending.

**Proof sketch.** What is pending is what the loop holds and what is in the queue, in this order.
The runtime takes from the front of it. -/
lemma pending_afterRun {l : RuntimeLabel} {rest : List UiCommand} {r : Runtime}
    {outs : List RuntimeOut} (hcommands : sys.commands = l.taken ++ rest)
    (hstep : sys.runtime.step C ownId l = some (r, outs)) :
    (∃ kind, sys.pending = kind :: (sys.afterRun rest r outs).pending ∧
      (r, outs) = sys.runtime.startSession kind) ∨
    ((sys.afterRun rest r outs).pending = sys.pending ∧ r.sessions = sys.runtime.sessions) := by
  have hpending : sys.pending = (sys.runtime.held ++ l.taken.filterMap UiCommand.kind?) ++
      rest.filterMap UiCommand.kind? := by
    simp [pending, hcommands]
  rcases Runtime.queue_of_step hstep with ⟨kind, hkind, he⟩ | ⟨hheld, hsess⟩
  · refine Or.inl ⟨kind, ?_, he⟩
    obtain ⟨rfl, rfl⟩ := Prod.mk.inj he
    rw [hpending, hkind]
    rfl
  · refine Or.inr ⟨?_, hsess⟩
    rw [hpending, ← hheld]
    rfl

/-- **Every session that was asked for has started or is pending.**

**Proof sketch.** By the list of the steps. An action adds what it asks for to the queue, a step of
the runtime starts one session or keeps what it holds, and draining changes neither. -/
lemma numbered_of_step (hn : sys.runtime.sessions + sys.pending.length = sys.asked)
    (h : sys.step C ownId l = some sys') :
    sys'.runtime.sessions + sys'.pending.length = sys'.asked := by
  cases step_cases h with
  | acts w u app cmds =>
    rw [pending_afterAct, List.length_append, ← Nat.add_assoc]
    show sys.runtime.sessions + _ + _ = sys.asked + _
    rw [hn]
  | drains => exact hn
  | runs l rest r outs hcommands hstep =>
    show r.sessions + _ = sys.asked
    rcases pending_afterRun hcommands hstep with ⟨kind, hpending, he⟩ | ⟨hpending, hsess⟩
    · rw [hpending, List.length_cons] at hn
      obtain ⟨rfl, -⟩ := Prod.mk.inj he
      show sys.runtime.sessions + 1 + _ = _
      omega
    · rw [hpending, hsess]
      exact hn

end Step

end System

end Duocb
