import Duocb.Net.Session.Expiry
import Duocb.Net.Runtime.CardSetup
import Duocb.System.Idle

set_option relaxedAutoImplicit false
set_option autoImplicit false

/-!
# Whose content the boxes hold

The boxes belong to one peer, the one the application last asked a clipboard session with. A
received text does not say whom it comes from, and so it goes into the boxes of whoever has them
when it is drained. It belongs there as long as the boxes change hands only after everything has
settled that could still bring in a text.

## Main definitions

* `Duocb.System.Owned` — sessions that were asked for since the boxes last changed hands are their
  peer's.
* `Duocb.Runtime.Surfaces` — a task that can still receive a text.
* `Duocb.System.HandsOver` — the boxes change hands only when nothing can still bring in a text.

## Main results

* `Duocb.System.owned_of_step` — every step keeps the owner of the sessions.
* `Duocb.System.inbox_from_box_peer` — all items of the inbox are from the peer the boxes belong to.
* `Duocb.System.text_changes_box` — a text of one peer in the inbox of another.
-/

namespace Duocb

namespace App

variable {τ : Type} {a a' : App τ} {cmds : List UiCommand}

/-- No event gives the boxes to another peer.

**Proof sketch.** By the event; none of them names the owner of the boxes. -/
lemma applyEvent_boxPeer (a : App τ) (now : τ) (e : NetEvent) :
    (a.applyEvent now e).boxPeer = a.boxPeer := by
  cases e with
  | status status => cases status <;> rfl
  | peerCardReceived card =>
    simp only [applyEvent]
    split <;> rfl
  | itemReceived text pulled =>
    simp only [applyEvent]
    split_ifs <;> rfl
  | itemSent =>
    simp only [applyEvent]
    split <;> rfl
  | _ => rfl

/-- A text that is received is the only new item of the inbox. -/
lemma mem_inbox_itemReceived {now : τ} {text : String} {pulled : Bool} {item : ClipItem τ}
    (h : item ∈ (a.applyEvent now (.itemReceived text pulled)).inbox) :
    item ∈ a.inbox ∨ item = ⟨text, now⟩ := by
  simp only [applyEvent] at h
  split_ifs at h
  · exact Or.inl h
  · exact (List.mem_cons.1 (List.mem_of_mem_take h)).symm

/-- An action asks for at most one session.

**Proof sketch.** By the list of the actions. Only three of them send a command that starts a
session, and each sends one. -/
lemma Acted.kinds (h : Acted a a' cmds) : cmds.filterMap UiCommand.kind? = [] ∨
    ∃ kind, cmds.filterMap UiCommand.kind? = [kind] ∧
      ∀ peer, kind.peer = some peer → a'.boxPeer = some peer := by
  cases h with
  | quiet _ _ _ _ _ plain => exact Or.inl (List.filterMap_eq_nil_iff.2 fun c hc => (plain c hc).1)
  | sends => exact Or.inl rfl
  | setsUp _ cmd kind starts setup =>
    refine Or.inr ⟨kind, by simp [starts], fun peer hpeer => ?_⟩
    rw [setup] at hpeer
    cases hpeer
  | connects _ cmd kind peer starts for_ _ _ owner =>
    refine Or.inr ⟨kind, by simp [starts], fun peer' hpeer => ?_⟩
    rw [owner, ← for_, hpeer]
  | disowns => exact Or.inl rfl

/-- Boxes that change hands are emptied. -/
lemma Acted.cleared (h : Acted a a' cmds) (hne : a'.boxPeer ≠ a.boxPeer) : a'.Cleared := by
  cases h with
  | quiet _ _ _ _ boxes => exact absurd boxes.boxPeer hne
  | sends => exact absurd rfl hne
  | setsUp _ _ _ _ _ _ _ boxes => exact absurd boxes.boxPeer hne
  | connects _ _ _ _ _ _ _ _ _ boxes =>
    rcases boxes with boxes | ⟨-, boxes⟩
    · exact absurd boxes.boxPeer hne
    · exact boxes
  | disowns _ _ _ _ boxes => exact boxes

/-- An action leaves the inbox, or empties it. -/
lemma Acted.inbox (h : Acted a a' cmds) : a'.inbox = a.inbox ∨ a'.inbox = [] := by
  cases h with
  | quiet _ _ _ _ boxes => exact boxes.inbox
  | sends => exact Or.inl rfl
  | setsUp _ _ _ _ _ _ _ boxes => exact boxes.inbox
  | connects _ _ _ _ _ _ _ _ _ boxes =>
    exact boxes.elim (fun h => h.inbox) fun h => Or.inr h.2.inbox
  | disowns _ _ _ _ boxes => exact Or.inr boxes.inbox

end App

namespace Runtime

variable {C : Crypto} {ownId : EndpointId} {r r' : Runtime} {l : RuntimeLabel}
  {outs : List RuntimeOut}

/-- A step that starts no session keeps the peer of the one that runs, if it goes on.

**Proof sketch.** By the list of the steps of the loop: a task keeps its kind, and a loop without a
task has no peer. -/
lemma peer_of_step (hex : r.Exclusive) (h : r.step C ownId l = some (r', outs))
    (hsess : r'.sessions = r.sessions) : r'.peer = r.peer ∨ r'.peer = none := by
  unfold peer
  cases step_cases hex h with
  | own l s s' memory memory' os htask hm hstep =>
    left
    rw [(withTask_task r s' memory').1, htask]
    simp [(Session.step_same hstep).kind]
  | asked cmd paths s s' hidle hsession hsame =>
    left
    rw [task_of_receiving (by exact hidle), task_of_receiving hidle, hsession]
    simp [hsame.kind]
  | answered => exact Or.inl rfl
  | cancels cmd paths s hidle hsession =>
    left
    rw [task_of_receiving hidle, hsession]
    rfl
  | starts l kind =>
    have : r.sessions + 1 = r.sessions := hsess
    omega
  | forgets l hgone =>
    right
    rw [task_of_free (by exact hgone) (by simp)]
    rfl
  | ends l loop hgone hfree =>
    right
    rw [task_of_free (by exact hgone) (by exact hfree)]
    rfl

end Runtime

namespace System

variable {τ : Type} {C : Crypto} {ownId : EndpointId} {c : Launch} {sys sys' : System τ}
  {l : SystemLabel τ}

/-! ## The owner of the sessions -/

/-- The sessions that were asked for since the boxes last changed hands, pending or running, are the
box peer's, and so are the events they have put out. -/
structure Owned (sys : System τ) : Prop where
  exclusive : sys.runtime.Exclusive
  numbered : sys.runtime.sessions + sys.pending.length = sys.asked
  handed_le : sys.handed ≤ sys.asked
  pending : ∀ i kind peer, sys.pending[i]? = some kind → sys.handed ≤ sys.runtime.sessions + i →
    kind.peer = some peer → sys.app.boxPeer = some peer
  task : ∀ peer, sys.handed < sys.runtime.sessions → sys.runtime.peer = some peer →
    sys.app.boxPeer = some peer
  events : ∀ e ∈ sys.events, e.session ≤ sys.runtime.sessions ∧
    ∀ peer, sys.handed < e.session → e.peer = some peer → sys.app.boxPeer = some peer

/-- A system that has just begun has asked for no session. -/
lemma owned_init (c : Launch) : (init c : System τ).Owned where
  exclusive _ _ h := by cases h
  numbered := rfl
  handed_le := Nat.le_refl _
  pending i kind peer h := by cases h
  task peer h := by cases h
  events e h := by cases h

/-- An action of the user keeps the owner of the sessions.

**Proof sketch.** An action that asks for a session hands the boxes to its peer at the same time.
The sessions that were asked for before are not new, and keep their owner. -/
lemma owned_afterAct (h : sys.Owned) {app : App (Stamp τ)} {cmds : List UiCommand}
    (acted : sys.app.Acted app cmds)
    (hnumbered : (sys.afterAct app cmds).runtime.sessions + (sys.afterAct app cmds).pending.length =
      (sys.afterAct app cmds).asked) : (sys.afterAct app cmds).Owned := by
  have hn := h.numbered
  have hle := h.handed_le
  -- the session that is asked for now is the new box peer's
  have hnew : ∀ (i : ℕ) (kind : SessionKind) (peer : PublicKey),
      (cmds.filterMap UiCommand.kind?)[i]? = some kind →
      kind.peer = some peer → app.boxPeer = some peer := by
    intro i kind peer hi hpeer
    rcases acted.kinds with hnil | ⟨kind', hkind, howner⟩
    · rw [hnil] at hi
      cases hi
    · rw [hkind] at hi
      obtain rfl : kind' = kind := by
        cases i with
        | zero => exact Option.some.inj hi
        | succ i => cases hi
      exact howner peer hpeer
  by_cases hsame : app.boxPeer = sys.app.boxPeer
  · have hhanded : (sys.afterAct app cmds).handed = sys.handed := if_pos hsame
    refine ⟨h.exclusive, hnumbered, ?_, ?_, ?_, ?_⟩
    · rw [hhanded]
      exact Nat.le_trans hle (Nat.le_add_right _ _)
    · intro i kind peer hi hlt hpeer
      rw [hhanded] at hlt
      rw [pending_afterAct] at hi
      by_cases hlen : i < sys.pending.length
      · rw [List.getElem?_append_left hlen] at hi
        exact hsame.trans (h.pending i kind peer hi hlt hpeer)
      · rw [List.getElem?_append_right (by omega)] at hi
        exact hnew _ kind peer hi hpeer
    · intro peer hlt hpeer
      rw [hhanded] at hlt
      exact hsame.trans (h.task peer hlt hpeer)
    · intro e he
      rw [hhanded]
      exact ⟨(h.events e he).1,
        fun peer hlt hpeer => hsame.trans ((h.events e he).2 peer hlt hpeer)⟩
  · -- all sessions before this action are of the time before
    have hhanded : (sys.afterAct app cmds).handed = sys.asked := if_neg hsame
    refine ⟨h.exclusive, hnumbered, ?_, ?_, ?_, ?_⟩
    · rw [hhanded]
      exact Nat.le_add_right _ _
    · intro i kind peer hi hlt hpeer
      have hlt' : sys.asked ≤ sys.runtime.sessions + i := hhanded ▸ hlt
      rw [pending_afterAct, List.getElem?_append_right (by omega)] at hi
      exact hnew _ kind peer hi hpeer
    · intro peer hlt
      have hlt' : sys.asked < sys.runtime.sessions := hhanded ▸ hlt
      omega
    · intro e he
      refine ⟨(h.events e he).1, fun peer hlt => ?_⟩
      have hlt' : sys.asked < e.session := hhanded ▸ hlt
      have := (h.events e he).1
      omega

/-- **Every step keeps the owner of the sessions.**

**Proof sketch.** By the list of the steps of the system. A session that starts is the first that is
pending, so its peer is the one it was asked for with. What it surfaces carries that peer. -/
lemma owned_of_step (h : sys.Owned) (hstep : sys.step C ownId l = some sys') : sys'.Owned := by
  have hnumbered := numbered_of_step h.numbered hstep
  cases step_cases hstep with
  | acts w u app cmds act acted => exact owned_afterAct h acted hnumbered
  | drains now e rest events =>
    have hbox := App.applyEvent_boxPeer sys.app ⟨now, e.peer⟩ e.event
    refine ⟨h.exclusive, hnumbered, h.handed_le, ?_, ?_, ?_⟩
    · exact fun i kind peer hi hlt hpeer => hbox.trans (h.pending i kind peer hi hlt hpeer)
    · exact fun peer hlt hpeer => hbox.trans (h.task peer hlt hpeer)
    · intro e' he'
      have hmem : e' ∈ sys.events := events ▸ List.mem_cons_of_mem _ he'
      exact ⟨(h.events e' hmem).1, fun peer hlt hpeer =>
        hbox.trans ((h.events e' hmem).2 peer hlt hpeer)⟩
  | runs l rest r outs commands step =>
    have hexclusive := Runtime.exclusive_of_step h.exclusive step
    rcases pending_afterRun commands step with ⟨kind, hpending, hstart⟩ | ⟨hpending, hsess⟩
    · obtain ⟨rfl, rfl⟩ := Prod.mk.inj hstart
      have hnext : (sys.runtime.startSession kind).1.sessions = sys.runtime.sessions + 1 := rfl
      refine ⟨hexclusive, hnumbered, h.handed_le, ?_, ?_, ?_⟩
      · intro i kind' peer hi hlt hpeer
        refine h.pending (i + 1) kind' peer (by rw [hpending]; exact hi) ?_ hpeer
        have hlt' : sys.handed ≤ sys.runtime.sessions + 1 + i := hlt
        omega
      · intro peer hlt hpeer
        refine h.pending 0 kind peer (by rw [hpending]; rfl) ?_ hpeer
        have hlt' : sys.handed < sys.runtime.sessions + 1 := hlt
        omega
      · intro e he
        have hmem : e ∈ sys.events := by
          simpa [afterRun, Runtime.posts, Runtime.startSession] using he
        exact ⟨Nat.le_succ_of_le (h.events e hmem).1, (h.events e hmem).2⟩
    · refine ⟨hexclusive, hnumbered, h.handed_le, ?_, ?_, ?_⟩
      · intro i kind peer hi hlt hpeer
        refine h.pending i kind peer (hpending ▸ hi) ?_ hpeer
        have hlt' : sys.handed ≤ r.sessions + i := hlt
        omega
      · intro peer hlt hpeer
        have hlt' : sys.handed < r.sessions := hlt
        rcases Runtime.peer_of_step h.exclusive step hsess with hp | hp
        · exact h.task peer (by omega) (hp ▸ hpeer)
        · have : r.peer = some peer := hpeer
          rw [hp] at this
          cases this
      · intro e he
        show e.session ≤ r.sessions ∧ _
        rw [hsess]
        rcases List.mem_append.1 he with he | he
        · exact h.events e he
        · obtain ⟨hsession, hpeer, -⟩ := Runtime.mem_posts he
          exact ⟨Nat.le_of_eq hsession, fun peer hlt hp =>
            h.task peer (hsession ▸ hlt) (hpeer ▸ hp)⟩

/-! ## Texts that are received -/

end System

namespace Session

variable {C : Crypto} {ownId : EndpointId} {s s' : Session} {memory memory' : SessionMemory}
  {l : SessionLabel} {outs : List Out}

/-- Only a pump surfaces a text, in a clipboard session.

**Proof sketch.** By the list of the steps of a task. All the others put out events that bring no
text. -/
lemma pumping_of_itemReceived (h : s.step C ownId memory l = some (s', memory', outs))
    {text : String} {pulled : Bool} (hout : Out.event (.itemReceived text pulled) ∈ outs) :
    s.kind.peer.isSome ∧ ¬ s.phase.Over := by
  have hloud : ∀ {outs : List Out}, (∀ o ∈ outs, o.Quiet) →
      Out.event (.itemReceived text pulled) ∉ outs := fun hq hm => hq _ hm
  cases step_cases h with
  | pumps l conn hist p p' clip' out _ _ from_ step peer =>
    exact ⟨peer, by rw [from_]; exact id⟩
  | stay _ _ _ _ _ _ _ _ _ _ quiet => exact absurd hout (hloud quiet)
  | move _ _ _ _ _ _ _ _ _ quiet => exact absurd hout (hloud quiet)
  | begin_ _ _ _ _ _ _ _ _ _ quiet => exact absurd hout (hloud quiet)
  | goOn => cases hout
  | paired _ _ _ _ _ _ _ _ _ _ _ _ _ _ _ _ _ quiet => exact absurd hout (hloud quiet)
  | trades _ _ _ _ _ _ _ _ _ _ _ _ _ _ _ quiet => exact absurd hout (hloud quiet)
  | unpaired _ _ _ _ _ _ _ _ _ _ _ _ _ _ _ quiet => exact absurd hout (hloud quiet)
  | exhausted => simp [Out.status, Out.error] at hout
  | stops => simp at hout
  | preempts => simp [Out.status] at hout
  | receives _ _ _ _ _ _ _ _ outs_eq => rcases outs_eq with rfl | rfl <;> simp at hout
  | closes _ _ _ _ _ _ _ _ _ quiet => exact absurd hout (hloud quiet)
  | givesUp => simp [Out.status, Out.error] at hout
  | returns _ _ _ quiet => exact absurd hout (hloud quiet)
  | returnsIdle _ os _ quiet =>
    rcases List.mem_append.1 hout with hout | hout
    · exact absurd hout (hloud quiet)
    · simp [Out.status] at hout

/-- A task that is on the way to its end stays so. -/
lemma over_step (h : s.step C ownId memory l = some (s', memory', outs)) (hs : s.phase.Over) :
    s'.phase.Over := by
  rcases card_cases h with ⟨-, hkeep⟩ | ⟨-, hnot, -⟩
  · exact hkeep hs
  · exact absurd hs hnot

end Session

namespace Runtime

variable {C : Crypto} {ownId : EndpointId} {r r' : Runtime} {l : RuntimeLabel}
  {outs : List RuntimeOut}

/-- A clipboard session is running that can still receive a text. -/
def Surfaces (r : Runtime) : Prop :=
  ∃ s, r.task = some s ∧ s.kind.peer.isSome ∧ ¬ s.phase.Over

/-- A step that starts no session makes none receive texts again.

**Proof sketch.** By the list of the steps of the loop. A task that ends does not begin again, and
without a start there is no other one. -/
lemma surfaces_of_step (hex : r.Exclusive) (h : r.step C ownId l = some (r', outs))
    (hsess : r'.sessions = r.sessions) (hr : r'.Surfaces) : r.Surfaces := by
  obtain ⟨s₁, hs₁, hpeer, hover⟩ := hr
  cases step_cases hex h with
  | own l s s' memory memory' os htask hm hstep =>
    obtain rfl : s' = s₁ := Option.some.inj ((withTask_task r s' memory').1.symm.trans hs₁)
    rw [(Session.step_same hstep).kind] at hpeer
    exact ⟨s, htask, hpeer, fun h => hover (Session.over_step hstep h)⟩
  | asked cmd paths s s' hidle hsession hsame hphase =>
    rw [task_of_receiving (by exact hidle)] at hs₁
    obtain rfl : s' = s₁ := Option.some.inj hs₁
    refine ⟨s, by rw [task_of_receiving hidle, hsession], hsame.kind ▸ hpeer, ?_⟩
    rwa [hphase] at hover
  | answered => exact ⟨s₁, hs₁, hpeer, hover⟩
  | cancels cmd paths s hidle hsession =>
    obtain rfl : ({ s with cancelled := true } : Session) = s₁ := Option.some.inj hs₁
    exact ⟨s, by rw [task_of_receiving hidle, hsession], hpeer, hover⟩
  | starts l kind =>
    have : r.sessions + 1 = r.sessions := hsess
    omega
  | forgets l hgone =>
    rw [task_of_free (by exact hgone) (by simp)] at hs₁
    cases hs₁
  | ends l loop hgone hfree =>
    rw [task_of_free (by exact hgone) (by exact hfree)] at hs₁
    cases hs₁

/-- A text is received, or confirmed, by the task and not by the loop.

**Proof sketch.** By the list of the steps of the loop. What the loop answers itself is an error, a
status or a list of paths. -/
lemma own_of_item (hex : r.Exclusive) (h : r.step C ownId l = some (r', outs)) {e : Posted}
    (he : e ∈ r.posts outs)
    (hitem : e.event = .itemSent ∨ ∃ text pulled, e.event = .itemReceived text pulled) :
    ∃ a s s' memory memory' os, r.task = some s ∧
      s.step C ownId memory a = some (s', memory', os) ∧ Out.event e.event ∈ os ∧
      outs = os.map (.out s.sid) := by
  obtain ⟨-, -, -, hmem⟩ := mem_posts he
  cases step_cases hex h with
  | own a s s' memory memory' os htask hm hstep =>
    exact ⟨a, s, s', memory, memory', os, htask, hstep, by simpa using hmem, rfl⟩
  | answered cmd paths e' =>
    have he' : e.event = e' := by simpa using hmem
    rw [he'] at hitem
    rcases answer_cases h with ⟨message, rfl⟩ | ⟨paths', rfl⟩ <;> simp at hitem
  | asked => simp at hmem
  | cancels => simp at hmem
  | starts l kind => simp [startSession] at hmem
  | forgets =>
    have he' : e.event = .status .idle := by simpa using hmem
    rw [he'] at hitem
    simp at hitem
  | ends => simp at hmem

/-- A text is surfaced by a clipboard session that can receive one. -/
lemma surfaces_of_itemReceived (hex : r.Exclusive) (h : r.step C ownId l = some (r', outs))
    {e : Posted} (he : e ∈ r.posts outs) {text : String} {pulled : Bool}
    (hitem : e.event = .itemReceived text pulled) : r.Surfaces ∧ e.peer.isSome := by
  obtain ⟨-, hpeer, -, -⟩ := mem_posts he
  obtain ⟨a, s, s', memory, memory', os, htask, hstep, hout, -⟩ :=
    own_of_item hex h he (Or.inr ⟨text, pulled, hitem⟩)
  rw [hitem] at hout
  obtain ⟨hsome, hover⟩ := Session.pumping_of_itemReceived hstep hout
  refine ⟨⟨s, htask, hsome, hover⟩, ?_⟩
  rw [hpeer, peer, htask]
  exact hsome

end Runtime

namespace System

variable {τ : Type} {C : Crypto} {ownId : EndpointId} {c : Launch} {sys sys' : System τ}
  {l : SystemLabel τ}

/-- The boxes change hands only when nothing can still bring in a text: no clipboard session is
pending or can still receive one, and no text that was received is waiting to be drained. -/
def HandsOver (sys : System τ) (l : SystemLabel τ) : Prop :=
  ∀ w u, l = .user w u → (sys.app.act w u).1.boxPeer ≠ sys.app.boxPeer →
    (∀ kind ∈ sys.pending, kind.peer = none) ∧ ¬ sys.runtime.Surfaces ∧
      ∀ e ∈ sys.events, ∀ text pulled, e.event ≠ .itemReceived text pulled

/-- What holds of the inbox: its items are the box peer's, and what can still bring in a text was
asked for after the boxes last changed hands. -/
structure Sealed (sys : System τ) : Prop where
  owned : sys.Owned
  pending : ∀ (i : ℕ) (kind : SessionKind), sys.pending[i]? = some kind → kind.peer.isSome →
    sys.handed ≤ sys.runtime.sessions + i
  task : sys.runtime.Surfaces → sys.handed < sys.runtime.sessions
  events : ∀ e ∈ sys.events, ∀ text pulled, e.event = .itemReceived text pulled →
    sys.handed < e.session ∧ e.peer.isSome
  inbox : ∀ item ∈ sys.app.inbox, ∃ peer, item.timestamp.peer = some peer ∧
    sys.app.boxPeer = some peer

/-- A system that has just begun has an empty inbox. -/
lemma sealed_init (c : Launch) : (init c : System τ).Sealed where
  owned := owned_init c
  pending i kind h := by cases h
  task h := by
    obtain ⟨s, hs, -⟩ := h
    cases hs
  events e h := by cases h
  inbox item h := by cases h

/-- **Every step that hands the boxes over in time keeps the inbox its peer's.**

**Proof sketch.** By the list of the steps. The boxes change hands only when nothing is pending,
nothing runs and no event waits, so what is drained later is of the new peer. Every other step
leaves the boxes to their owner. -/
lemma sealed_of_step (h : sys.Sealed) (hhands : sys.HandsOver l)
    (hstep : sys.step C ownId l = some sys') : sys'.Sealed := by
  have howned := owned_of_step h.owned hstep
  have hn := h.owned.numbered
  have hle := h.owned.handed_le
  cases step_cases hstep with
  | acts w u app cmds act acted =>
    by_cases hsame : app.boxPeer = sys.app.boxPeer
    · have hhanded : (sys.afterAct app cmds).handed = sys.handed := if_pos hsame
      refine ⟨howned, fun i kind hi hpeer => ?_, fun hs => ?_, fun e he text pulled hitem => ?_, ?_⟩
      · rw [hhanded]
        rw [pending_afterAct] at hi
        show sys.handed ≤ sys.runtime.sessions + i
        by_cases hlen : i < sys.pending.length
        · rw [List.getElem?_append_left hlen] at hi
          exact h.pending i kind hi hpeer
        · omega
      · rw [hhanded]
        exact h.task hs
      · rw [hhanded]
        exact h.events e he text pulled hitem
      · intro item hitem
        show ∃ peer, _ ∧ app.boxPeer = some peer
        rw [hsame]
        rcases acted.inbox with hinbox | hinbox
        · exact h.inbox item (hinbox ▸ hitem)
        · have : item ∈ app.inbox := hitem
          rw [hinbox] at this
          cases this
    · -- the boxes change hands, and all is settled
      obtain ⟨hpending, hsurfaces, hevents⟩ := hhands w u rfl (by rw [act]; exact hsame)
      have hhanded : (sys.afterAct app cmds).handed = sys.asked := if_neg hsame
      refine ⟨howned, fun i kind hi hpeer => ?_, fun hs => absurd hs hsurfaces,
        fun e he text pulled hitem => absurd hitem (hevents e he text pulled), ?_⟩
      · rw [hhanded]
        show sys.asked ≤ sys.runtime.sessions + i
        rw [pending_afterAct] at hi
        by_cases hlen : i < sys.pending.length
        · rw [List.getElem?_append_left hlen] at hi
          rw [hpending kind (List.mem_of_getElem? hi)] at hpeer
          cases hpeer
        · omega
      · intro item hitem
        have : item ∈ app.inbox := hitem
        rw [(acted.cleared hsame).inbox] at this
        cases this
  | drains now e rest events =>
    have hbox := App.applyEvent_boxPeer sys.app ⟨now, e.peer⟩ e.event
    have hhead : e ∈ sys.events := events ▸ List.mem_cons_self
    refine ⟨howned, h.pending, h.task,
      fun e' he' => h.events e' (events ▸ List.mem_cons_of_mem _ he'), fun item hitem => ?_⟩
    show ∃ peer, _ ∧ (sys.app.applyEvent ⟨now, e.peer⟩ e.event).boxPeer = some peer
    rw [hbox]
    by_cases hreceived : ∃ text pulled, e.event = .itemReceived text pulled
    · obtain ⟨text, pulled, he⟩ := hreceived
      have hmem : item ∈ (sys.app.applyEvent ⟨now, e.peer⟩ e.event).inbox := hitem
      rw [he] at hmem
      rcases App.mem_inbox_itemReceived hmem with hold | rfl
      · exact h.inbox item hold
      · -- the text is of a session of the box peer
        obtain ⟨hlt, hsome⟩ := h.events e hhead text pulled he
        obtain ⟨peer, hpeer⟩ := Option.isSome_iff_exists.1 hsome
        exact ⟨peer, hpeer, (h.owned.events e hhead).2 peer hlt hpeer⟩
    · have hinbox : (sys.app.applyEvent ⟨now, e.peer⟩ e.event).inbox = sys.app.inbox :=
        App.applyEvent_inbox fun text pulled he => hreceived ⟨text, pulled, he⟩
      exact h.inbox item (hinbox ▸ hitem)
  | runs l rest r outs commands step =>
    rcases pending_afterRun commands step with ⟨kind, hpending, hstart⟩ | ⟨hpending, hsess⟩
    · obtain ⟨rfl, rfl⟩ := Prod.mk.inj hstart
      refine ⟨howned, fun i kind' hi hpeer => ?_, fun hs => ?_, fun e he => ?_, h.inbox⟩
      · have := h.pending (i + 1) kind' (by rw [hpending]; exact hi) hpeer
        show sys.handed ≤ sys.runtime.sessions + 1 + i
        omega
      · obtain ⟨s, hs, hpeer, -⟩ := hs
        obtain rfl : Session.start sys.runtime.sessions kind = s := Option.some.inj hs
        have := h.pending 0 kind (by rw [hpending]; rfl) hpeer
        show sys.handed < sys.runtime.sessions + 1
        omega
      · have hmem : e ∈ sys.events := by
          simpa [afterRun, Runtime.posts, Runtime.startSession] using he
        exact h.events e hmem
    · refine ⟨howned, fun i kind hi hpeer => ?_, fun hs => ?_, fun e he text pulled hitem => ?_,
        h.inbox⟩
      · show sys.handed ≤ r.sessions + i
        rw [hsess]
        exact h.pending i kind (hpending ▸ hi) hpeer
      · show sys.handed < r.sessions
        rw [hsess]
        exact h.task (Runtime.surfaces_of_step h.owned.exclusive step hsess hs)
      · rcases List.mem_append.1 he with he | he
        · exact h.events e he text pulled hitem
        · obtain ⟨hs, hpeer⟩ := Runtime.surfaces_of_itemReceived h.owned.exclusive step he hitem
          have hlt := h.task hs
          rw [← (Runtime.mem_posts he).1] at hlt
          exact ⟨hlt, hpeer⟩

/-- **All items of the inbox are from the peer the boxes belong to**, in every run in which the
boxes change hands only when nothing can still bring in a text.

**Proof sketch.** The invariant is kept by every step that hands the boxes over in time, and it says
this of the inbox. -/
theorem inbox_from_box_peer {labels : List (SystemLabel τ)} (hrun : Ran C ownId c labels sys)
    (hmeets : Machine.Meets (step C ownId) HandsOver (init c) labels) :
    ∀ item ∈ sys.app.inbox, ∃ peer, item.timestamp.peer = some peer ∧
      sys.app.boxPeer = some peer := by
  have hI : sys.Sealed := Machine.exec_invariant (fun _ _ _ h hh hs => sealed_of_step h hh hs)
    (sealed_init c) hmeets hrun
  exact hI.inbox

section Sample

open Sample TimedSession

/-- A device that dials one of its peers and hosts for the other. -/
def middleKey : PublicKey := .filled 3

/-- The key of a third device, -/
def otherKey : PublicKey := .filled 4

/-- and the card of the second one. -/
def middleCard : IdentityCard := ⟨middleKey, "middle", 0, 10, "card"⟩

/-- The device with its two peers. -/
def twoPeers : Launch :=
  ⟨.lanOnly, ⟨middleKey⟩, some "middle", "suffix", some middleCard,
    [peerCard, ⟨otherKey, "other", 0, 10, "card"⟩]⟩

/-- The command that dials the first peer. -/
def dialPeer : UiCommand :=
  .connect (.key ⟨⟨middleKey⟩, middleCard, twoPeers.peers, defaultRelays⟩ peerKey .lanOnly)

/-- The handshake with the first peer. It is a dialer's, from the stream that it opens to the
verdict. -/
def greeting : List HandshakeEvt :=
  [⟨.sessionStream, .ok ()⟩, ⟨.randomNonce, "nonce-d"⟩,
    ⟨.write (AuthRequest.keyRequest middleKey.toHex "nonce-d").toFrame, .ok ()⟩,
    ⟨.read MAX_CONTROL_MESSAGE_SIZE,
      .ok (KeyChallenge.new peerKey.toHex "nonce-l" "sig-l").toFrame⟩,
    ⟨.signAuth (KeyAuth.authTranscript "dialer" middleKey peerKey "nonce-d" "nonce-l"
      joinerId.toString hostId.toString), "sig-d"⟩,
    ⟨.write (KeyProof.new "sig-d").toFrame, .ok ()⟩,
    ⟨.read MAX_CONTROL_MESSAGE_SIZE, .ok AuthResponse.accept.toFrame⟩]

/-- The user connects to a peer. -/
def connectsTo (key : PublicKey) : List (SystemLabel ℕ) :=
  [.user wall .openConnectPicker, .user wall (.togglePeer key), .user wall .connectSelected]

/-- The first peer is dialed, and a connection is up. -/
def connectsFirst : List (SystemLabel ℕ) :=
  connectsTo peerKey ++ [.net (.command dialPeer []), .net (.own (.begin 0)),
    .net (.own (.bound (.ok ()))), .net (.own (.resolved (.ok hostId))),
    .net (.own (.dialed (.ok ⟨0, hostId⟩)))] ++
  greeting.map (fun e => .net (.own (.auth (.io e) none))) ++ [.net (.own (.pump .written))]

/-- The first peer sends a text. -/
def receives : List (SystemLabel ℕ) :=
  connectsFirst ++ [.net (.own (.pump (.read (.ok (ClipMsg.item "text" 0).toFrame))))]

/-- The application drains events. -/
def drains (n : ℕ) : List (SystemLabel ℕ) := List.replicate n (.drain 0)

/-- Whether the boxes change hands in a step in which something can still bring in a text. -/
def handsOver (sys : System ℕ) : SystemLabel ℕ → Bool
  | .user w u => (sys.app.act w u).1.boxPeer == sys.app.boxPeer ||
      (sys.pending.isEmpty && sys.runtime.task.isNone && sys.events.isEmpty)
  | _ => true

/-- A step that is found to hand over does. -/
lemma handsOver_of {sys : System ℕ} {l : SystemLabel ℕ} (h : sys.handsOver l = true) :
    sys.HandsOver l := by
  rintro w u rfl hne
  simp only [handsOver, Bool.or_eq_true, beq_iff_eq, hne, false_or, Bool.and_eq_true,
    List.isEmpty_iff, Option.isNone_iff_eq_none] at h
  obtain ⟨⟨hpending, htask⟩, hevents⟩ := h
  refine ⟨by simp [hpending], ?_, by simp [hevents]⟩
  rintro ⟨s, hs, -⟩
  rw [htask] at hs
  cases hs

/-- A text of the first peer is in the inbox, while the boxes are the first peer's. -/
theorem inbox_from_box_peer_sample : ∃ sys item,
    Ran keyed joinerId twoPeers (receives ++ drains 8) sys ∧ item ∈ sys.app.inbox ∧
    item.text = "text" ∧ ∃ peer, item.timestamp.peer = some peer ∧ sys.app.boxPeer = some peer := by
  have hrun : ((Machine.exec (step keyed joinerId) (init twoPeers) (receives ++ drains 8)).any
      fun sys => sys.app.inbox.any fun item => item.text = "text") = true := by decide +kernel
  obtain ⟨sys, hexec, hany⟩ := (Option.any_eq_true _ _).1 hrun
  obtain ⟨item, hitem, htext⟩ := List.any_eq_true.1 hany
  exact ⟨sys, item, hexec, hitem, of_decide_eq_true htext, inbox_from_box_peer hexec
    (Machine.meets_of_check (fun _ _ => handsOver_of) (by decide +kernel)) item hitem⟩

/-- **A text changes its box**: the first peer's text has been received but not drained when the
user goes on to the second peer, and ends up in the second peer's inbox.

**Proof sketch.** The run is computed. -/
theorem text_changes_box : ∃ sys item, Ran keyed joinerId twoPeers
      (receives ++ .user wall .goBack :: connectsTo otherKey ++ drains 8) sys ∧
    item ∈ sys.app.inbox ∧ item.timestamp.peer = some peerKey ∧
    sys.app.boxPeer = some otherKey := by
  have hrun : ((Machine.exec (step keyed joinerId) (init twoPeers)
      (receives ++ .user wall .goBack :: connectsTo otherKey ++ drains 8)).any fun sys =>
        sys.app.boxPeer == some otherKey &&
          sys.app.inbox.any fun item => item.timestamp.peer == some peerKey) = true := by
    decide +kernel
  obtain ⟨sys, hexec, hend⟩ := (Option.any_eq_true _ _).1 hrun
  obtain ⟨hbox, hany⟩ := Bool.and_eq_true_iff.1 hend
  obtain ⟨item, hitem, hpeer⟩ := List.any_eq_true.1 hany
  exact ⟨sys, item, hexec, hitem, by simpa using hpeer, by simpa using hbox⟩

end Sample

end System

end Duocb
