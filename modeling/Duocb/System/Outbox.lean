import Duocb.System.Boxes

set_option relaxedAutoImplicit false
set_option autoImplicit false

/-!
# What the outbox says was sent

A text goes from the application to the command queue, from there to the clip channel of the
session, from there to the writer of its pump, and its confirmation goes back with the events. No
part of this way says which text it is about; the application takes a confirmation to be about the
text that is pending. It is, as long as the user sends a text only when no earlier one is still on
the way.

## Main definitions

* `Duocb.Runtime.texts`, `Duocb.System.onWay` — the texts that are on the way, the first one first.
* `Duocb.System.SendsAlone` — a text is sent only when no earlier one is on the way.
* `Duocb.System.Truthful` — what holds of the pending text, of what is on the way, and of the
  outbox.

## Main results

* `Duocb.Runtime.texts_of_step` — the texts stay in order, and none is doubled.
* `Duocb.System.outbox_truthful` — the outbox holds a text that was written to the current peer.
* `Duocb.System.outbox_lies` — a confirmation of an earlier text promotes a later one.
-/

namespace Duocb

/-! ## The texts on their way -/

/-- The texts a task holds: the one that is being written, and those on the clip channel. -/
def Session.texts (s : Session) : List String := s.writing.toList ++ s.clip.queue

/-- The text an event confirms. -/
def Posted.confirms (e : Posted) : Option String :=
  if e.event = .itemSent then e.text else none

namespace Session

variable {C : Crypto} {ownId : EndpointId} {s s' : Session} {memory memory' : SessionMemory}
  {l : SessionLabel} {outs : List Out}

/-- A place without a pump has no text that is being written. -/
lemma writing_of_noPump (h : s.phase.NoPump) : s.writing = none := by
  unfold writing
  cases hp : s.phase with
  | pumping => rw [hp] at h; exact h.elim
  | _ => rfl

/-- The text that a pumping session writes is that of its writer. -/
lemma writing_of_pumping {conn : Conn} {hist : List HandshakeEvt} {p : Pump}
    (h : s.phase = .pumping conn hist p) : s.writing = p.writer.text? := by
  simp [writing, h]

/-- What is left when a step touches neither the clip channel nor the writer, or drops the pump. -/
lemma texts_sublist (hwriting : s'.writing = none ∨ s'.writing = s.writing)
    (hclip : s'.clip = s.clip) : s'.texts.Sublist s.texts := by
  unfold texts
  rw [hclip]
  rcases hwriting with hw | hw
  · rw [hw]
    exact List.sublist_append_right _ _
  · rw [hw]

/-- A session that does not pump writes no text. -/
lemma writing_of_plain (h : s.phase.Plain) : s.writing = none :=
  writing_of_noPump (by cases hp : s.phase <;> simp_all [Phase.Plain, Phase.NoPump])

/-- **What a step of a task does to the texts it holds**: it confirms the one that was being
written, or it confirms none and keeps the order.

**Proof sketch.** By the list of the steps of a task. The pump confirms the text that it was
writing, and takes the next one from its channel. A step that ends the pump drops what it held. -/
lemma texts_cases (h : s.step C ownId memory l = some (s', memory', outs)) :
    (Out.event .itemSent ∉ outs ∧ s'.texts.Sublist s.texts) ∨
      ∃ text ms conn, s.writing = some text ∧ s.kind.peer.isSome ∧ s'.texts = s.clip.queue ∧
        outs = [.frame conn (ClipMsg.item text ms).toFrame, .event .itemSent] := by
  have hloud : ∀ {outs : List Out}, (∀ o ∈ outs, o.Quiet) → Out.event .itemSent ∉ outs :=
    fun hq hm => hq _ hm
  cases step_cases h with
  | stay _ _ _ _ _ phase clip _ _ _ quiet =>
    refine Or.inl ⟨hloud quiet, texts_sublist (Or.inr ?_) clip⟩
    unfold writing
    rw [phase]
  | move _ _ _ _ _ _ into clip _ quiet =>
    exact Or.inl ⟨hloud quiet, texts_sublist (Or.inl (writing_of_plain into)) clip⟩
  | begin_ _ _ _ _ _ _ _ phase clip quiet =>
    exact Or.inl ⟨hloud quiet, texts_sublist (Or.inl (by simp [writing, phase])) clip⟩
  | goOn _ _ _ _ _ _ _ _ _ _ phase clip =>
    exact Or.inl ⟨by simp, texts_sublist (Or.inl (by simp [writing, phase])) clip⟩
  | paired _ _ _ _ _ _ _ _ _ _ _ _ _ _ _ phase clip quiet =>
    refine Or.inl ⟨hloud quiet, texts_sublist (Or.inl ?_) clip⟩
    rw [writing_of_pumping phase]
    rfl
  | trades _ _ _ _ _ _ _ _ _ _ _ _ _ phase clip quiet =>
    exact Or.inl ⟨hloud quiet, texts_sublist (Or.inl (by simp [writing, phase])) clip⟩
  | pumps l conn hist p p' clip' out _ _ from_ step peer phase clip =>
    unfold texts
    rw [writing_of_pumping phase, writing_of_pumping from_, clip]
    cases Pump.step_cases step with
    | pulled hw => exact Or.inl ⟨by simp [pumpOut], by simp [Writer.text?, hw]⟩
    | sent text ms hw => exact Or.inr ⟨text, ms, conn, by rw [hw]; rfl, peer, rfl, rfl⟩
    | resent text ms hw => exact Or.inl ⟨by simp [pumpOut], by simp [Writer.text?, hw]⟩
    | took text rest ms hw hq => exact Or.inl ⟨by simp, by simp [Writer.text?, hw, hq]⟩
    | refused text rest ms e hw hq =>
      exact Or.inl ⟨by simp [pumpOut], by simp [Writer.text?, hw, hq]⟩
    | skipped pulls hw => exact Or.inl ⟨by simp, List.Sublist.refl _⟩
    | answered text ms pulls hw => exact Or.inl ⟨by simp, by simp [Writer.text?, hw]⟩
    | nudged => exact Or.inl ⟨by simp, List.Sublist.refl _⟩
    | received => exact Or.inl ⟨by simp [pumpOut], List.Sublist.refl _⟩
  | unpaired _ _ _ _ _ _ _ _ _ _ _ _ into clip _ quiet =>
    exact Or.inl ⟨hloud quiet, texts_sublist (Or.inl (writing_of_plain into)) clip⟩
  | exhausted _ _ _ _ _ _ _ _ _ _ _ _ _ _ phase clip =>
    exact Or.inl ⟨by simp [Out.status, Out.error],
      texts_sublist (Or.inl (by simp [writing, phase])) clip⟩
  | stops _ _ _ _ _ _ _ _ phase clip =>
    exact Or.inl ⟨by simp, texts_sublist (Or.inl (by simp [writing, phase])) clip⟩
  | preempts _ _ _ _ _ _ _ _ _ _ phase clip =>
    exact Or.inl ⟨by simp [Out.status], texts_sublist (Or.inl (by simp [writing, phase])) clip⟩
  | receives _ _ _ _ _ _ into clip outs_eq =>
    refine Or.inl ⟨by rcases outs_eq with rfl | rfl <;> simp, texts_sublist (Or.inl ?_) clip⟩
    refine writing_of_noPump ?_
    cases hp : s'.phase <;> simp_all [Phase.Over, Phase.NoPump]
  | closes _ _ _ _ _ _ phase clip _ quiet =>
    exact Or.inl ⟨hloud quiet, texts_sublist (Or.inl (by simp [writing, phase])) clip⟩
  | givesUp _ _ _ _ _ _ _ phase clip =>
    exact Or.inl ⟨by simp [Out.status, Out.error],
      texts_sublist (Or.inl (by simp [writing, phase])) clip⟩
  | returns _ _ _ quiet => exact Or.inl ⟨hloud quiet, List.nil_sublist _⟩
  | returnsIdle _ os _ quiet =>
    refine Or.inl ⟨fun hm => ?_, List.nil_sublist _⟩
    rcases List.mem_append.1 hm with hm | hm
    · exact hloud quiet hm
    · simp [Out.status] at hm

end Session

namespace Runtime

variable {C : Crypto} {ownId : EndpointId} {r r' : Runtime} {l : RuntimeLabel}
  {outs : List RuntimeOut}

/-- The texts the session that runs holds. -/
def texts (r : Runtime) : List String :=
  match r.task with
  | some s => s.texts
  | none => []

/-- The texts of a runtime are those of its task, -/
lemma texts_of_task {s : Session} (h : r.task = some s) : r.texts = s.texts := by
  simp [texts, h]

/-- and there are none without one. -/
lemma texts_of_none (h : r.task = none) : r.texts = [] := by
  simp [texts, h]

/-- A step that surfaces no confirmation posts none. -/
lemma confirms_eq_nil (h : ∀ sid, RuntimeOut.out sid (.event .itemSent) ∉ outs)
    (h' : RuntimeOut.event .itemSent ∉ outs) : (r.posts outs).filterMap Posted.confirms = [] := by
  refine List.filterMap_eq_nil_iff.2 fun e he => ?_
  obtain ⟨-, -, -, hmem⟩ := mem_posts he
  unfold Posted.confirms
  rw [if_neg]
  intro hsent
  rw [hsent] at hmem
  rcases hmem with ⟨sid, hmem⟩ | hmem
  · exact h sid hmem
  · exact h' hmem

/-- **The texts stay in order, and none is doubled**: what a step of the runtime confirms and what
it still holds was held by it, or was sent to it with the command it took.

**Proof sketch.** By the list of the steps of the loop. A task keeps the order of its texts, a
command adds one at the end, and a session that starts has none. -/
theorem texts_of_step (hex : r.Exclusive) (h : r.step C ownId l = some (r', outs)) :
    ((r.posts outs).filterMap Posted.confirms ++ r'.texts).Sublist
      (r.texts ++ l.taken.filterMap UiCommand.text?) := by
  cases step_cases hex h with
  | own l s s' memory memory' os htask hm hstep =>
    rw [texts_of_task htask, texts_of_task (withTask_task r s' memory').1]
    refine List.Sublist.trans ?_ (List.sublist_append_left _ _)
    rcases Session.texts_cases hstep with ⟨hnot, hsub⟩ | ⟨text, ms, conn, hwriting, -, htexts, rfl⟩
    · rw [confirms_eq_nil (by simpa using hnot) (by simp)]
      exact hsub
    · have hconfirms : (r.posts ([Out.frame conn (ClipMsg.item text ms).toFrame,
          .event .itemSent].map (RuntimeOut.out s.sid))).filterMap Posted.confirms = [text] := by
        simp [posts, Posted.confirms, htask, hwriting]
      rw [hconfirms, htexts, Session.texts, hwriting]
      exact List.Sublist.refl _
  | asked cmd paths s s' hidle hsession hsame hphase _ _ hclip =>
    have htask : r.task = some s := by rw [task_of_receiving hidle, hsession]
    have htask' : ({ r with session := some s' } : Runtime).task = some s' :=
      task_of_receiving (by exact hidle)
    have hwriting : s'.writing = s.writing := by
      unfold Session.writing
      rw [hphase]
    rw [confirms_eq_nil (by simp) (by simp), texts_of_task htask, texts_of_task htask']
    unfold Session.texts
    rw [hwriting, List.nil_append]
    rcases hclip with hclip | ⟨-, text, rfl, hclip⟩
    · rw [hclip]
      exact List.sublist_append_left _ _
    · simp [hclip, RuntimeLabel.taken, UiCommand.text?]
  | answered cmd paths e =>
    have hnot : e ≠ .itemSent := by
      rcases answer_cases h with ⟨message, rfl⟩ | ⟨paths', rfl⟩ <;> simp
    rw [confirms_eq_nil (by simp) (by simpa using hnot.symm)]
    exact List.sublist_append_left _ _
  | cancels cmd paths s hidle hsession =>
    have htask : r.task = some s := by rw [task_of_receiving hidle, hsession]
    rw [confirms_eq_nil (by simp) (by simp), texts_of_task htask]
    exact List.sublist_append_left _ _
  | starts l kind => exact List.nil_sublist _
  | forgets l hgone =>
    rw [texts_of_none (task_of_free (by exact hgone) (by simp))]
    exact List.nil_sublist _
  | ends l loop hgone hfree =>
    rw [texts_of_none (task_of_free (by exact hgone) (by exact hfree))]
    exact List.nil_sublist _

/-- A confirmation that is put out comes right after the frame with the text it confirms.

**Proof sketch.** The task puts out both in one step, and what it writes is the text that it was
writing. -/
lemma written_of_itemSent (hex : r.Exclusive) (h : r.step C ownId l = some (r', outs)) {e : Posted}
    (he : e ∈ r.posts outs) (hsent : e.event = .itemSent) :
    ∃ peer text ms, e.peer = some peer ∧ e.text = some text ∧
      (some peer, (ClipMsg.item text ms).toFrame) ∈ r.writes outs := by
  obtain ⟨-, hpeer, htext, -⟩ := mem_posts he
  obtain ⟨a, s, s', memory, memory', os, htask, hstep, hout, rfl⟩ :=
    own_of_item hex h he (Or.inl hsent)
  rw [hsent] at hout
  rcases Session.texts_cases hstep with ⟨hnot, -⟩ | ⟨text, ms, conn, hwriting, hsome, -, rfl⟩
  · exact absurd hout hnot
  · obtain ⟨peer, hkind⟩ := Option.isSome_iff_exists.1 hsome
    have hrpeer : r.peer = some peer := by simp [Runtime.peer, htask, hkind]
    refine ⟨peer, text, ms, hpeer.trans hrpeer, ?_, ?_⟩
    · rw [htext, htask]
      exact hwriting
    · simp [writes, hrpeer]

/-- The loop takes a command only when it holds none. -/
lemma held_of_taken (h : r.step C ownId l = some (r', outs)) (htaken : l.taken ≠ []) :
    r.held = [] := by
  cases l with
  | command cmd paths =>
    simp only [step] at h
    split at h
    · rename_i hloop
      simp [held, hloop]
    · cases h
  | _ => exact absurd rfl htaken

end Runtime

namespace System

variable {τ : Type} {C : Crypto} {ownId : EndpointId} {c : Launch} {sys sys' : System τ}
  {l : SystemLabel τ}

/-- The texts in the command queue, each with the number of sessions that are started before it is
taken. -/
def queued (n : ℕ) : List UiCommand → List (ℕ × String)
  | [] => []
  | cmd :: rest =>
    (cmd.text?.map (Prod.mk n)).toList ++ queued (n + cmd.kind?.toList.length) rest

/-- The text an event confirms, with the number of the session that wrote it. -/
def confirmed (e : Posted) : Option (ℕ × String) := e.confirms.map (Prod.mk e.session)

/-- The texts that are on their way, each with the number of the session it goes through: those that
were written and whose confirmation is not drained yet, those the running session holds, and those
in the command queue. -/
def onWay (sys : System τ) : List (ℕ × String) :=
  sys.events.filterMap confirmed ++ sys.runtime.texts.map (Prod.mk sys.runtime.sessions) ++
    queued (sys.runtime.sessions + sys.runtime.held.length) sys.commands

/-- The texts queued for the sessions of two stretches of commands, one after the other.

**Proof sketch.** By induction on the first stretch; the number goes up with each command that
starts a session. -/
lemma queued_append (n : ℕ) (cmds cmds' : List UiCommand) :
    queued n (cmds ++ cmds') =
      queued n cmds ++ queued (n + (cmds.filterMap UiCommand.kind?).length) cmds' := by
  induction cmds generalizing n with
  | nil => rfl
  | cons cmd cmds ih =>
    have hlen : n + cmd.kind?.toList.length + (cmds.filterMap UiCommand.kind?).length =
        n + ((cmd :: cmds).filterMap UiCommand.kind?).length := by
      cases hkind : cmd.kind? with
      | none => simp [hkind]
      | some kind =>
        simp [hkind]
        omega
    rw [List.cons_append, queued, queued, ih, hlen, List.append_assoc]

/-- At most one command is taken in a step, and it goes to the session that runs then. -/
lemma queued_taken (n : ℕ) (l : RuntimeLabel) :
    queued n l.taken = (l.taken.filterMap UiCommand.text?).map (Prod.mk n) := by
  cases l with
  | command cmd paths =>
    simp only [RuntimeLabel.taken, queued, List.append_nil, List.filterMap_cons,
      List.filterMap_nil]
    cases cmd.text? <;> rfl
  | _ => rfl

/-- What a step of the runtime puts out is of the session that runs. -/
lemma confirmed_posts (r : Runtime) (outs : List RuntimeOut) :
    (r.posts outs).filterMap confirmed =
      ((r.posts outs).filterMap Posted.confirms).map (Prod.mk r.sessions) := by
  rw [List.map_filterMap]
  refine List.filterMap_congr fun e he => ?_
  rw [confirmed, (Runtime.mem_posts he).1]

/-- **A step brings no text on its way but the one the user sends**, and each keeps its session.

**Proof sketch.** The three places of a text are compared in order: the events, the texts of the
runtime and the queue. A step of the runtime moves texts from a later place to an earlier one. -/
lemma onWay_afterRun (hex : sys.runtime.Exclusive) {l : RuntimeLabel} {rest : List UiCommand}
    {r : Runtime} {outs : List RuntimeOut} (hcommands : sys.commands = l.taken ++ rest)
    (hstep : sys.runtime.step C ownId l = some (r, outs)) :
    (sys.afterRun rest r outs).onWay.Sublist sys.onWay := by
  have hafter : (sys.afterRun rest r outs).onWay = sys.events.filterMap confirmed ++
      (((sys.runtime.posts outs).filterMap confirmed ++ r.texts.map (Prod.mk r.sessions)) ++
        queued (r.sessions + r.held.length) rest) := by
    simp [onWay, afterRun]
  have hbefore : sys.onWay = sys.events.filterMap confirmed ++
      ((sys.runtime.texts.map (Prod.mk sys.runtime.sessions) ++
        queued (sys.runtime.sessions + sys.runtime.held.length) l.taken) ++
        queued (sys.runtime.sessions + sys.runtime.held.length +
          (l.taken.filterMap UiCommand.kind?).length) rest) := by
    simp [onWay, hcommands, queued_append]
  rw [hafter, hbefore]
  refine List.Sublist.append (List.Sublist.refl _) ?_
  rcases Runtime.queue_of_step hstep with ⟨kind, hkind, hstart⟩ | ⟨hheld, hsess⟩
  · -- a session that starts holds no text
    obtain ⟨rfl, rfl⟩ := Prod.mk.inj hstart
    have hlen : sys.runtime.sessions + sys.runtime.held.length +
        (l.taken.filterMap UiCommand.kind?).length = sys.runtime.sessions + 1 := by
      rw [Nat.add_assoc, ← List.length_append, hkind]
      rfl
    rw [hlen]
    exact List.sublist_append_right _ _
  · have hlen : r.sessions + r.held.length = sys.runtime.sessions + sys.runtime.held.length +
        (l.taken.filterMap UiCommand.kind?).length := by
      rw [hsess, hheld, List.length_append, Nat.add_assoc]
    rw [hlen]
    refine List.Sublist.append ?_ (List.Sublist.refl _)
    have htaken : queued (sys.runtime.sessions + sys.runtime.held.length) l.taken =
        (l.taken.filterMap UiCommand.text?).map (Prod.mk sys.runtime.sessions) := by
      rw [queued_taken]
      by_cases hnil : l.taken = []
      · rw [hnil]
        rfl
      · rw [Runtime.held_of_taken hstep hnil, List.length_nil, Nat.add_zero]
    rw [confirmed_posts, hsess, htaken, ← List.map_append, ← List.map_append]
    exact (Runtime.texts_of_step hex hstep).map _

/-! ## What the outbox says -/

/-- A text is sent only when no earlier one is still on its way. -/
def SendsAlone (sys : System τ) (l : SystemLabel τ) : Prop :=
  ∀ w u text, l = .user w u → .sendClipboard text ∈ (sys.app.act w u).2 → sys.onWay = []

/-- What holds of the pending text, of what is on the way, and of the outbox. The pending text is
the only one on the way, what was confirmed was written, and the text of the outbox was written to
the peer of the boxes. -/
structure Truthful (sys : System τ) : Prop where
  owned : sys.Owned
  /-- Boxes that have changed hands since the last session was asked for have no owner. -/
  unowned : sys.handed = sys.asked → sys.app.boxPeer = none
  same : ∀ text, sys.app.pendingOutbox = some text → ∀ x ∈ sys.onWay, x = (sys.sentAt, text)
  fresh : sys.app.pendingOutbox.isSome → sys.handed < sys.sentAt ∨ sys.app.boxPeer = none
  sent : ∀ e ∈ sys.events, e.event = .itemSent → ∃ peer text ms, e.peer = some peer ∧
    e.text = some text ∧ (some peer, (ClipMsg.item text ms).toFrame) ∈ sys.written
  outbox : ∀ item, sys.app.outbox = some item → ∃ peer ms,
    (some peer, (ClipMsg.item item.text ms).toFrame) ∈ sys.written ∧
      (sys.app.boxPeer = some peer ∨ sys.app.boxPeer = none)

/-- In a system that has just begun, nothing is in the outbox. -/
lemma truthful_init (c : Launch) : (init c : System τ).Truthful where
  owned := owned_init c
  unowned _ := rfl
  same text h := by cases h
  fresh h := by cases h
  sent e h := by cases h
  outbox item h := by cases h

/-- A confirmation that waits is of a text on its way. -/
lemma mem_onWay_of_sent {e : Posted} (he : e ∈ sys.events) (hsent : e.event = .itemSent)
    {text : String} (htext : e.text = some text) : (e.session, text) ∈ sys.onWay := by
  refine List.mem_append_left _ (List.mem_append_left _ (List.mem_filterMap.2 ⟨e, he, ?_⟩))
  simp [confirmed, Posted.confirms, hsent, htext]

end System

namespace App

variable {τ : Type} {a a' : App τ} {cmds : List UiCommand}

/-- Only a confirmation changes the outbox: it promotes the pending text.

**Proof sketch.** By the event; only one of them moves a text into the outbox. -/
lemma applyEvent_outbox (a : App τ) (now : τ) (e : NetEvent) :
    (a.applyEvent now e).outbox = a.outbox ∨ (e = .itemSent ∧ ∃ text, a.pendingOutbox = some text ∧
      (a.applyEvent now e).outbox = some ⟨text, now⟩ ∧
        (a.applyEvent now e).pendingOutbox = none) := by
  cases e with
  | status status => cases status <;> exact Or.inl rfl
  | peerCardReceived card =>
    simp only [applyEvent]
    split <;> exact Or.inl rfl
  | itemReceived text pulled =>
    simp only [applyEvent]
    split_ifs <;> exact Or.inl rfl
  | itemSent =>
    simp only [applyEvent]
    split
    · rename_i text htext
      exact Or.inr ⟨trivial, text, htext, rfl, rfl⟩
    · exact Or.inl rfl
  | _ => exact Or.inl rfl

/-- No event brings a pending text.

**Proof sketch.** By the event: a pending text is kept or dropped. -/
lemma applyEvent_pendingOutbox (a : App τ) (now : τ) (e : NetEvent) :
    (a.applyEvent now e).pendingOutbox = a.pendingOutbox ∨
      (a.applyEvent now e).pendingOutbox = none := by
  cases e with
  | status status => cases status <;> first | exact Or.inl rfl | exact Or.inr rfl
  | peerCardReceived card =>
    simp only [applyEvent]
    split <;> exact Or.inl rfl
  | itemReceived text pulled =>
    simp only [applyEvent]
    split_ifs <;> exact Or.inl rfl
  | itemSent =>
    simp only [applyEvent]
    split
    · exact Or.inr rfl
    · exact Or.inl rfl
  | peerDisconnected => exact Or.inr rfl
  | error message => exact Or.inr rfl
  | _ => exact Or.inl rfl

/-- **What an action does to the pending text**: it sends one, which is pending from then on, or
sends none and keeps the one that is pending, or drops it.

**Proof sketch.** By the list of the actions, each of which says what it does to the boxes. -/
lemma Acted.texts (h : Acted a a' cmds) :
    (∃ text, cmds = [.sendClipboard text] ∧ a'.pendingOutbox = some text ∧ a'.outbox = a.outbox ∧
      a'.boxPeer = a.boxPeer) ∨
    (cmds.filterMap UiCommand.text? = [] ∧
      ((a'.pendingOutbox = a.pendingOutbox ∧ a'.outbox = a.outbox ∧ a'.boxPeer = a.boxPeer) ∨
        a'.Cleared)) := by
  have hstart : ∀ {cmd : UiCommand} {kind : SessionKind}, cmd.kind? = some kind →
      [cmd].filterMap UiCommand.text? = [] := by
    intro cmd kind hkind
    cases cmd <;> first | rfl | cases hkind
  cases h with
  | quiet _ _ _ _ boxes plain =>
    exact Or.inr ⟨List.filterMap_eq_nil_iff.2 fun c hc => (plain c hc).2.1,
      Or.inl ⟨boxes.pendingOutbox, boxes.outbox, boxes.boxPeer⟩⟩
  | sends text => exact Or.inl ⟨text, rfl, rfl, rfl, rfl⟩
  | setsUp _ cmd kind starts _ _ _ boxes =>
    exact Or.inr ⟨hstart starts, Or.inl ⟨boxes.pendingOutbox, boxes.outbox, boxes.boxPeer⟩⟩
  | connects _ cmd kind peer starts _ _ _ _ boxes =>
    refine Or.inr ⟨hstart starts, ?_⟩
    rcases boxes with boxes | ⟨-, boxes⟩
    · exact Or.inl ⟨boxes.pendingOutbox, boxes.outbox, boxes.boxPeer⟩
    · exact Or.inr boxes
  | disowns _ _ _ _ boxes => exact Or.inr ⟨rfl, Or.inr boxes⟩

end App

namespace System

variable {τ : Type} {C : Crypto} {ownId : EndpointId} {c : Launch} {sys sys' : System τ}
  {l : SystemLabel τ}

/-- Commands without a text bring no text on its way. -/
lemma queued_eq_nil (n : ℕ) {cmds : List UiCommand} (h : cmds.filterMap UiCommand.text? = []) :
    queued n cmds = [] := by
  induction cmds generalizing n with
  | nil => rfl
  | cons cmd cmds ih =>
    have hall := List.filterMap_eq_nil_iff.1 h
    have htail : cmds.filterMap UiCommand.text? = [] :=
      List.filterMap_eq_nil_iff.2 fun c hc => hall c (List.mem_cons_of_mem _ hc)
    rw [queued, hall cmd List.mem_cons_self, ih _ htail]
    rfl

/-- The texts on their way after an action: the one it sends goes to the session that was asked for
last. -/
lemma onWay_afterAct (hn : sys.runtime.sessions + sys.pending.length = sys.asked)
    (app : App (Stamp τ)) (cmds : List UiCommand) :
    (sys.afterAct app cmds).onWay = sys.onWay ++ queued sys.asked cmds := by
  have hlen : sys.runtime.sessions + sys.runtime.held.length +
      (sys.commands.filterMap UiCommand.kind?).length = sys.asked := by
    rw [← hn, pending, List.length_append, Nat.add_assoc]
  simp only [onWay, afterAct]
  rw [queued_append, hlen, ← List.append_assoc]

/-- An action keeps the outbox truthful, if it sends no text while one is on its way.

**Proof sketch.** By the action. A text that is sent finds nothing on its way, so it is alone there.
An action that clears the boxes leaves no text to account for, and any other one leaves them as they
are. -/
lemma truthful_afterAct (h : sys.Truthful) {app : App (Stamp τ)} {cmds : List UiCommand}
    (acted : sys.app.Acted app cmds)
    (halone : ∀ text, cmds = [.sendClipboard text] → sys.onWay = [])
    (howned : (sys.afterAct app cmds).Owned) : (sys.afterAct app cmds).Truthful := by
  have hway := onWay_afterAct h.owned.numbered app cmds
  have hunowned : (sys.afterAct app cmds).handed = (sys.afterAct app cmds).asked →
      app.boxPeer = none := by
    intro heq
    have hle := h.owned.handed_le
    have hasked : (sys.afterAct app cmds).asked =
        sys.asked + (cmds.filterMap UiCommand.kind?).length := rfl
    rcases acted.kinds with hnil | ⟨kind, hkind, -⟩
    · by_cases hsame : app.boxPeer = sys.app.boxPeer
      · have hhanded : (sys.afterAct app cmds).handed = sys.handed := if_pos hsame
        rw [hnil] at hasked
        rw [hsame]
        exact h.unowned (hhanded.symm.trans (heq.trans hasked))
      · cases acted with
        | quiet _ _ _ _ boxes => exact absurd boxes.boxPeer hsame
        | sends => exact absurd rfl hsame
        | setsUp _ _ _ _ _ _ _ boxes => exact absurd boxes.boxPeer hsame
        | connects _ _ _ _ starts => simp [starts] at hnil
        | disowns _ _ _ owner => exact owner
    · rw [hkind] at hasked
      by_cases hsame : app.boxPeer = sys.app.boxPeer
      · have hhanded : (sys.afterAct app cmds).handed = sys.handed := if_pos hsame
        simp only [List.length_singleton] at hasked
        omega
      · have hhanded : (sys.afterAct app cmds).handed = sys.asked := if_neg hsame
        simp only [List.length_singleton] at hasked
        omega
  rcases acted.texts with ⟨text, rfl, hpending, houtbox, hbox⟩ | ⟨hnone, hkeeps⟩
  · have hhanded : (sys.afterAct app [.sendClipboard text]).handed = sys.handed := if_pos hbox
    refine ⟨howned, hunowned, ?_, ?_, h.sent, ?_⟩
    · -- the new text is alone on its way
      intro text' htext' x hx
      obtain rfl : text = text' := Option.some.inj (hpending.symm.trans htext')
      rw [hway, halone text rfl] at hx
      exact List.mem_singleton.1 hx
    · intro _
      rw [hhanded]
      show sys.handed < sys.asked ∨ app.boxPeer = none
      rcases Nat.lt_or_eq_of_le h.owned.handed_le with hlt | heq
      · exact Or.inl hlt
      · exact Or.inr (hbox.trans (h.unowned heq))
    · intro item hitem
      obtain ⟨peer, ms, hwritten, howner⟩ := h.outbox item (houtbox ▸ hitem)
      exact ⟨peer, ms, hwritten, howner.imp hbox.trans hbox.trans⟩
  · rw [queued_eq_nil _ hnone, List.append_nil] at hway
    have hsentAt : (sys.afterAct app cmds).sentAt = sys.sentAt := by simp [afterAct, hnone]
    rcases hkeeps with ⟨hpending, houtbox, hbox⟩ | hcleared
    · have hhanded : (sys.afterAct app cmds).handed = sys.handed := if_pos hbox
      refine ⟨howned, hunowned, ?_, ?_, h.sent, ?_⟩
      · intro text htext x hx
        rw [hsentAt]
        exact h.same text (hpending ▸ htext) x (hway ▸ hx)
      · intro hsome
        rw [hhanded, hsentAt]
        exact (h.fresh (hpending ▸ hsome)).imp id hbox.trans
      · intro item hitem
        obtain ⟨peer, ms, hwritten, howner⟩ := h.outbox item (houtbox ▸ hitem)
        exact ⟨peer, ms, hwritten, howner.imp hbox.trans hbox.trans⟩
    · refine ⟨howned, hunowned, ?_, ?_, h.sent, ?_⟩
      · intro text htext
        have : app.pendingOutbox = some text := htext
        rw [hcleared.pendingOutbox] at this
        cases this
      · intro hsome
        have : app.pendingOutbox.isSome := hsome
        rw [hcleared.pendingOutbox] at this
        cases this
      · intro item hitem
        have : app.outbox = some item := hitem
        rw [hcleared.outbox] at this
        cases this

/-- **Every step in which no text is sent while another is on its way keeps the outbox truthful.**

**Proof sketch.** By the list of the steps. A confirmation that is drained is of the text that is
pending, since no other one was on its way. What the runtime puts out confirms the texts in their
order. -/
lemma truthful_of_step (h : sys.Truthful) (halone : sys.SendsAlone l)
    (hstep : sys.step C ownId l = some sys') : sys'.Truthful := by
  have howned := owned_of_step h.owned hstep
  cases step_cases hstep with
  | acts w u app cmds act acted =>
    refine truthful_afterAct h acted (fun text htext => ?_) howned
    refine halone w u text rfl ?_
    rw [act, htext]
    exact List.mem_singleton_self _
  | drains now e rest events =>
    have hbox := App.applyEvent_boxPeer sys.app ⟨now, e.peer⟩ e.event
    have hhead : e ∈ sys.events := events ▸ List.mem_cons_self
    have hway : (sys.afterDrain now e rest).onWay.Sublist sys.onWay := by
      simp only [onWay, afterDrain, events]
      refine List.Sublist.append (List.Sublist.append ?_ (List.Sublist.refl _))
        (List.Sublist.refl _)
      exact (List.sublist_cons_self e rest).filterMap _
    have hpending := App.applyEvent_pendingOutbox sys.app ⟨now, e.peer⟩ e.event
    refine ⟨howned, fun heq => hbox.trans (h.unowned heq), ?_, ?_, ?_, ?_⟩
    · intro text htext x hx
      rcases hpending with hp | hp
      · exact h.same text (hp.symm.trans htext) x (hway.subset hx)
      · cases hp.symm.trans htext
    · intro hsome
      rcases hpending with hp | hp
      · exact (h.fresh (hp ▸ hsome)).imp id hbox.trans
      · have : (sys.app.applyEvent ⟨now, e.peer⟩ e.event).pendingOutbox.isSome := hsome
        rw [hp] at this
        cases this
    · exact fun e' he' => h.sent e' (events ▸ List.mem_cons_of_mem _ he')
    · intro item hitem
      show ∃ peer ms, _ ∧ ((sys.app.applyEvent _ _).boxPeer = some peer ∨
        (sys.app.applyEvent _ _).boxPeer = none)
      rw [hbox]
      rcases App.applyEvent_outbox sys.app ⟨now, e.peer⟩ e.event with
        hkept | ⟨hsent, text, htext, hnew, -⟩
      · exact h.outbox item (hkept ▸ hitem)
      · -- the pending text is the one that is confirmed, and its session is of the box peer
        obtain rfl := Option.some.inj (hnew.symm.trans hitem)
        obtain ⟨peer, text', ms, hpeer, htext', hwritten⟩ := h.sent e hhead hsent
        obtain ⟨hsession, rfl⟩ :=
          Prod.mk.inj (h.same text htext _ (mem_onWay_of_sent hhead hsent htext'))
        refine ⟨peer, ms, hwritten, ?_⟩
        rcases h.fresh (by simp [htext]) with hlt | hnone
        · exact Or.inl ((h.owned.events e hhead).2 peer (hsession ▸ hlt) hpeer)
        · exact Or.inr hnone
  | runs l rest r outs commands step =>
    have hway := onWay_afterRun h.owned.exclusive commands step
    refine ⟨howned, h.unowned, fun text htext x hx => h.same text htext x (hway.subset hx), h.fresh,
      ?_, ?_⟩
    · intro e he hsent
      rcases List.mem_append.1 he with he | he
      · obtain ⟨peer, text, ms, hpeer, htext, hwritten⟩ := h.sent e he hsent
        exact ⟨peer, text, ms, hpeer, htext, List.mem_append_left _ hwritten⟩
      · obtain ⟨peer, text, ms, hpeer, htext, hwritten⟩ :=
          Runtime.written_of_itemSent h.owned.exclusive step he hsent
        exact ⟨peer, text, ms, hpeer, htext, List.mem_append_right _ hwritten⟩
    · intro item hitem
      obtain ⟨peer, ms, hwritten, howner⟩ := h.outbox item hitem
      exact ⟨peer, ms, List.mem_append_left _ hwritten, howner⟩

/-- **The outbox holds a text that was written to the peer of the boxes**, if they still have one,
and a confirmation never waits for a later text than the one it is of: in every run in which a text
is sent only when no earlier one is on its way.

**Proof sketch.** That the outbox is truthful is kept by every step at which a text is sent alone.
-/
theorem outbox_truthful {labels : List (SystemLabel τ)} (hrun : Ran C ownId c labels sys)
    (hmeets : Machine.Meets (step C ownId) SendsAlone (init c) labels) :
    (∀ item, sys.app.outbox = some item → ∃ peer ms,
      (some peer, (ClipMsg.item item.text ms).toFrame) ∈ sys.written ∧
        (sys.app.boxPeer = some peer ∨ sys.app.boxPeer = none)) ∧
    ∀ e ∈ sys.events, e.event = .itemSent → ∀ text, sys.app.pendingOutbox = some text →
      e.text = some text := by
  have hI : sys.Truthful := Machine.exec_invariant (fun _ _ _ h ha hs => truthful_of_step h ha hs)
    (truthful_init c) hmeets hrun
  refine ⟨hI.outbox, fun e he hsent text htext => ?_⟩
  obtain ⟨peer, text', ms, -, htext', -⟩ := hI.sent e he hsent
  obtain ⟨-, rfl⟩ := Prod.mk.inj (hI.same text htext _ (mem_onWay_of_sent he hsent htext'))
  exact htext'

section Sample

open Sample TimedSession

/-- The user writes a text and sends it. -/
def sends (text : String) : SystemLabel ℕ := .user wall (.composeSend text)

/-- The text reaches the clip channel, and is written. -/
def delivers (text : String) : List (SystemLabel ℕ) :=
  [sends text, .net (.command (.sendClipboard text) []), .net (.own (.pump (.takeItem 0))),
    .net (.own (.pump .written)), .drain 0]

/-- The connection is lost while the first text waits in the clip channel, and the dialer dials
again; the writer takes the text, and while it writes it the application sees that it is connected.
-/
def redials : List (SystemLabel ℕ) :=
  connectsFirst ++ drains 7 ++ [sends "first", .net (.command (.sendClipboard "first") []),
    .net (.own (.pump (.read (.error (.msg "lost"))))), .net (.own .slept),
    .net (.own (.resolved (.ok hostId))), .net (.own (.dialed (.ok ⟨1, hostId⟩)))] ++
  greeting.map (fun e => .net (.own (.auth (.io e) none))) ++
  [.net (.own (.pump .written)), .net (.own (.pump (.takeItem 0)))] ++ drains 7

/-- The user sends a second text, and the first one is confirmed. -/
def overtakes : List (SystemLabel ℕ) :=
  redials ++ [sends "second", .net (.own (.pump .written)), .drain 0]

/-- Whether a step that sends a text sends it alone. -/
def sendsAlone (sys : System ℕ) : SystemLabel ℕ → Bool
  | .user w u => ((sys.app.act w u).2.filterMap UiCommand.text?).isEmpty || sys.onWay.isEmpty
  | _ => true

/-- A step that is found to send alone does. -/
lemma sendsAlone_of {sys : System ℕ} {l : SystemLabel ℕ} (h : sys.sendsAlone l = true) :
    sys.SendsAlone l := by
  rintro w u text rfl hmem
  simp only [sendsAlone, Bool.or_eq_true, List.isEmpty_iff] at h
  rcases h with h | h
  · cases List.filterMap_eq_nil_iff.1 h _ hmem
  · exact h

/-- A text that was sent alone is in the outbox, and was written. -/
theorem outbox_truthful_sample : ∃ sys item,
    Ran keyed joinerId twoPeers (connectsFirst ++ drains 7 ++ delivers "text") sys ∧
    sys.app.outbox = some item ∧ item.text = "text" ∧
    ∃ peer ms, (some peer, (ClipMsg.item item.text ms).toFrame) ∈ sys.written ∧
      (sys.app.boxPeer = some peer ∨ sys.app.boxPeer = none) := by
  have hrun : ((Machine.exec (step keyed joinerId) (init twoPeers)
      (connectsFirst ++ drains 7 ++ delivers "text")).any
        fun sys => sys.app.outbox.any fun item => item.text = "text") = true := by decide +kernel
  obtain ⟨sys, hexec, hany⟩ := (Option.any_eq_true _ _).1 hrun
  obtain ⟨item, hitem, htext⟩ := (Option.any_eq_true _ _).1 hany
  exact ⟨sys, item, hexec, hitem, of_decide_eq_true htext, (outbox_truthful hexec
    (Machine.meets_of_check (fun _ _ => sendsAlone_of) (by decide +kernel))).1 item hitem⟩

/-- The frame of an item carries its text. -/
lemma item_text (text : String) (ms : ℕ) :
    (ClipMsg.item text ms).toFrame.str "text" = some text := by
  simp [ClipMsg.item, ClipMsg.toFrame, Frame.str, Frame.field]

/-- **A confirmation of an earlier text promotes a later one**: the outbox holds a text of which no
pump has written anything.

**Proof sketch.** The run is computed. -/
theorem outbox_lies : ∃ sys item, Ran keyed joinerId twoPeers overtakes sys ∧
    sys.app.outbox = some item ∧
    ∀ peer ms, (peer, (ClipMsg.item item.text ms).toFrame) ∉ sys.written := by
  have hrun : ((Machine.exec (step keyed joinerId) (init twoPeers) overtakes).any fun sys =>
      (sys.app.outbox.any fun item => item.text = "second") &&
        sys.written.all fun x => x.2.str "text" ≠ some "second") = true := by decide +kernel
  obtain ⟨sys, hexec, hend⟩ := (Option.any_eq_true _ _).1 hrun
  obtain ⟨hany, hall⟩ := Bool.and_eq_true_iff.1 hend
  obtain ⟨item, hitem, htext⟩ := (Option.any_eq_true _ _).1 hany
  refine ⟨sys, item, hexec, hitem, fun peer ms hmem => ?_⟩
  have hne := of_decide_eq_true (List.all_eq_true.1 hall _ hmem)
  rw [item_text, of_decide_eq_true htext] at hne
  exact hne rfl

end Sample

end System

end Duocb
