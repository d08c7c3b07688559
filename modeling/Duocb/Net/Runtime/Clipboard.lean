import Duocb.Net.Runtime

set_option relaxedAutoImplicit false
set_option autoImplicit false

/-!
# Texts sent without a clipboard session

A card setup never carries clipboard content, and a text that is sent during one is meant to fail
loudly at the command loop. So is a text that is sent after a clipboard session has ended. It does
so only once the task has returned: until then the task still holds the receiving end of its clip
channel, and the loop can put texts on it. The task of a card setup never reads them. A dialer that
dialed itself, was refused or gave up reports that it is idle, and then closes its endpoint; it
reads no text either while it does.

## Main definitions

* `Duocb.Session.deaf` — a task that reads no text any more.
* `Duocb.Runtime.hasClipboardSession` — whether a text has a session that can carry it.
* `Duocb.Runtime.deaf` — whether a task that reads no text still holds its clip channel.
* `Duocb.Runtime.Reported`, `Duocb.Runtime.Heard` — a text that no session can carry is reported;
  it is sent while no such task is running.
* `Duocb.Runtime.swallowed` — the texts on the clip channel of a card setup.

## Main results

* `Duocb.Session.clip_of_deaf`, `Duocb.Runtime.own_deaf` — nothing reads the clip channel of such a
  task.
* `Duocb.Runtime.send_without_session` — a text that no session can carry is reported, and put on no
  channel, exactly when no such task is running.
-/

namespace Duocb

/-- Whether a task only closes its endpoint. -/
def Phase.isClosing : Phase → Bool
  | .closing => true
  | _ => false

namespace Session

/-- Whether a task reads no text, now or later: it trades cards, or it is done with its clipboard
session and closes its endpoint. It holds the receiving end of its clip channel until it returns. -/
def deaf (s : Session) : Bool := s.kind.isCardSetup || s.phase.isClosing

variable {C : Crypto} {ownId : EndpointId} {s s' : Session} {memory memory' : SessionMemory}
  {l : SessionLabel} {outs : List Out}

/-- A phase is found to be closing exactly if it is. -/
lemma isClosing_eq_true {phase : Phase} : phase.isClosing = true ↔ phase = .closing := by
  cases phase <;> simp [Phase.isClosing]

/-- A card setup is for no particular peer, so it never pumps. -/
lemma peer_of_isCardSetup {kind : SessionKind} (h : kind.isCardSetup = true) :
    ¬ kind.peer.isSome := by
  rcases kind with (_ | _) | (_ | _) <;> simp_all [SessionKind.isCardSetup, SessionKind.peer]

/-- The task of a card setup leaves its clip channel alone, until it returns and drops it. -/
lemma clip_of_cardSetup (hs : s.kind.isCardSetup = true)
    (h : s.step C ownId memory l = some (s', memory', outs)) :
    s'.clip = s.clip ∨ (s'.phase = .ended ∧ s'.clip.queue = []) := by
  cases Session.step_cases h with
  | pumps _ _ _ _ _ _ _ _ _ _ _ peer => exact absurd peer (peer_of_isCardSetup hs)
  | returns | returnsIdle => exact Or.inr ⟨rfl, rfl⟩
  | _ => exact Or.inl ‹_›

/-- A task that closes its endpoint leaves its clip channel alone, and does nothing else until it
returns.

**Proof sketch.** By the list of the steps of a task. Most of them begin elsewhere; of the others
only the end touches the channel. -/
lemma clip_of_closing (hs : s.phase = .closing)
    (h : s.step C ownId memory l = some (s', memory', outs)) :
    (s'.clip = s.clip ∧ s'.phase = .closing) ∨ (s'.phase = .ended ∧ s'.clip.queue = []) := by
  cases Session.step_cases h with
  | stay _ _ _ _ _ phase clip => exact Or.inl ⟨clip, by rw [phase, hs]⟩
  | closes _ _ _ _ _ _ phase clip => exact Or.inl ⟨clip, phase⟩
  | givesUp _ _ _ _ _ _ _ phase clip => exact Or.inl ⟨clip, phase⟩
  | returns | returnsIdle => exact Or.inr ⟨rfl, rfl⟩
  | move _ _ _ _ _ from_ => rw [hs] at from_; exact from_.elim
  | begin_ _ _ _ _ _ _ from_ => rw [hs] at from_; exact from_.elim
  | goOn _ _ _ _ _ _ _ _ from_ => rw [hs] at from_; cases from_
  | paired _ _ _ _ _ _ _ _ _ _ from_ => rw [hs] at from_; cases from_
  | trades _ _ _ _ _ _ _ _ _ _ from_ => rw [hs] at from_; cases from_
  | pumps _ _ _ _ _ _ _ _ _ from_ => rw [hs] at from_; cases from_
  | unpaired _ _ _ _ _ _ _ _ _ _ from_ => rw [hs] at from_; cases from_
  | exhausted _ _ _ _ _ _ _ _ _ _ from_ => rw [hs] at from_; cases from_
  | stops _ _ _ _ _ _ from_ => rw [hs] at from_; cases from_
  | preempts _ _ _ _ _ _ from_ => rw [hs] at from_; cases from_
  | receives _ _ _ _ _ from_ => rw [hs] at from_; cases from_

/-- **A deaf task never reads its clip channel.** A step leaves what stands there and leaves the
task deaf, or the task returns and the channel is dropped with all that stands on it. -/
lemma clip_of_deaf (hs : s.deaf = true)
    (h : s.step C ownId memory l = some (s', memory', outs)) :
    (s'.clip = s.clip ∧ s'.deaf = true) ∨ (s'.phase = .ended ∧ s'.clip.queue = []) := by
  rcases Bool.or_eq_true_iff.1 hs with hkind | hclosing
  · have hkind' : s'.kind.isCardSetup = true := by rw [(step_same h).kind, hkind]
    exact (clip_of_cardSetup hkind h).imp_left fun hclip => ⟨hclip, by simp [deaf, hkind']⟩
  · refine (clip_of_closing (isClosing_eq_true.1 hclosing) h).imp_left fun ⟨hclip, hphase⟩ => ?_
    exact ⟨hclip, by simp [deaf, isClosing_eq_true.2 hphase]⟩

end Session

namespace Runtime

/-- Whether a text has a session that can carry it: a clipboard session whose task is running, and
is not just closing its endpoint after the session has ended. -/
def hasClipboardSession (r : Runtime) : Bool :=
  match r.session with
  | some s => !s.deaf && !s.phase.isEnded
  | none => false

/-- Whether a task is running that reads no text, and so holds a clip channel that nothing reads. -/
def deaf (r : Runtime) : Bool :=
  match r.session with
  | some s => s.deaf && !s.phase.isEnded
  | none => false

/-- The texts on the clip channel of a card setup. -/
def swallowed (r : Runtime) : List String :=
  match r.task with
  | some s => if s.kind.isCardSetup then s.clip.queue else []
  | none => []

/-- What the loop answers a text with that it could not send. -/
def refusal : RuntimeOut := .event (.error notConnected)

/-- A text that is sent with no session to carry it is reported, and nothing else happens. -/
def Reported (C : Crypto) (ownId : EndpointId) (r : Runtime) (l : RuntimeLabel) : Prop :=
  ∀ text paths r' out, l = .command (.sendClipboard text) paths →
    r.step C ownId l = some (r', out) → r.hasClipboardSession = false → refusal ∈ out ∧ r' = r

/-- A text is not sent while a task that reads no text holds its clip channel. -/
def Heard (r : Runtime) (l : RuntimeLabel) : Prop :=
  ∀ text paths, l = .command (.sendClipboard text) paths → r.deaf = false

variable {C : Crypto} {ownId : EndpointId} {r r' : Runtime} {outs : List RuntimeOut}

/-- The texts on the clip channel of the task at hand count if it is a card setup. -/
lemma swallowed_of_task {s : Session} (h : r.task = some s) :
    r.swallowed = if s.kind.isCardSetup then s.clip.queue else [] := by
  simp [swallowed, h]

/-- **Nothing reads the clip channel of a deaf task.** When it moves, what stands there stays,
unless the task returns. -/
theorem own_deaf {l : SessionLabel} {s : Session} (hs : r.task = some s) (hdeaf : s.deaf = true)
    (h : r.step C ownId (.own l) = some (r', outs)) :
    ∃ s', r'.task = some s' ∧ s'.kind = s.kind ∧
      ((s'.clip = s.clip ∧ s'.deaf = true) ∨ (s'.phase = .ended ∧ s'.clip.queue = [])) := by
  obtain ⟨s₀, s', memory, memory', os, hs₀, hm, hstep, rfl, rfl⟩ := own_cases h
  obtain rfl : s = s₀ := Option.some.inj (hs.symm.trans hs₀)
  exact ⟨s', (withTask_task r s' memory').1, (Session.step_same hstep).kind,
    Session.clip_of_deaf hdeaf hstep⟩

/-- What stands on the clip channel of a card setup stays there when the task moves, or is dropped
with the channel. -/
lemma own_swallowed {l : SessionLabel} (h : r.step C ownId (.own l) = some (r', outs)) :
    r'.swallowed = r.swallowed ∨ r'.swallowed = [] := by
  obtain ⟨s, s', memory, memory', os, hs, hm, hstep, rfl, rfl⟩ := own_cases h
  rw [swallowed_of_task (withTask_task r s' memory').1, swallowed_of_task hs,
    (Session.step_same hstep).kind]
  by_cases hc : s.kind.isCardSetup = true
  · rw [if_pos hc, if_pos hc]
    rcases Session.clip_of_cardSetup hc hstep with hclip | ⟨-, hempty⟩
    · exact Or.inl (by rw [hclip])
    · exact Or.inr hempty
  · rw [if_neg hc, if_neg hc]
    exact Or.inl rfl

/-- What the loop does with a text that no session can carry.

**Proof sketch.** By the task that is there: none, one that has returned, or one that is deaf. -/
lemma sendClipboard_cases (text : String) (hnone : r.hasClipboardSession = false) :
    (r.deaf = false ∧ r.sendClipboard text = (r, [refusal])) ∨
      (r.deaf = true ∧ (r.sendClipboard text).2 = [] ∧ ∃ s, r.session = some s ∧
        (r.sendClipboard text).1.session =
          some { s with clip := { s.clip with queue := s.clip.queue ++ [text] } }) := by
  unfold sendClipboard deaf
  unfold hasClipboardSession at hnone
  cases hs : r.session with
  | none => exact Or.inl ⟨rfl, rfl⟩
  | some s =>
    simp only [hs] at hnone
    by_cases hended : s.phase.isEnded = true
    · exact Or.inl ⟨by simp [hended], by simp [hended, refusal]⟩
    · have hdeaf : s.deaf = true := by simpa [hended] using hnone
      exact Or.inr ⟨by simp [hended, hdeaf], by simp [hended], s, rfl, by simp [hended]⟩

/-- **One text**: with no session to carry it, it is reported and goes nowhere exactly when no task
that reads no text holds its clip channel.

**Proof sketch.** The step is the sending of the text, and its two outcomes are those of the lemma
before. -/
lemma reported_iff {text : String} {paths : List String} {out : List RuntimeOut}
    (hstep : r.step C ownId (.command (.sendClipboard text) paths) = some (r', out))
    (hnone : r.hasClipboardSession = false) : (refusal ∈ out ∧ r' = r) ↔ r.deaf = false := by
  have hsend : r.sendClipboard text = (r', out) := by
    simp only [step] at hstep
    split at hstep
    · exact Option.some.inj hstep
    · cases hstep
  rcases sendClipboard_cases text hnone with ⟨hdeaf, he⟩ | ⟨hdeaf, ho, -⟩
  · obtain ⟨rfl, rfl⟩ := Prod.mk.inj (he.symm.trans hsend)
    exact ⟨fun _ => hdeaf, fun _ => ⟨List.mem_singleton_self _, rfl⟩⟩
  · rw [hsend] at ho
    obtain rfl : out = [] := ho
    simp [hdeaf]

/-- A deaf task carries no text. -/
lemma hasClipboardSession_of_deaf (h : r.deaf = true) : r.hasClipboardSession = false := by
  unfold deaf at h
  unfold hasClipboardSession
  split at h <;> simp_all

/-- So do those of the session, while the loop receives. -/
lemma swallowed_of_session {s : Session} (hloop : r.loop = .receiving)
    (hs : r.session = some s) :
    r.swallowed = if s.kind.isCardSetup then s.clip.queue else [] :=
  swallowed_of_task (by rw [task_of_receiving hloop, hs])

/-- A step at which no deaf task is sent a text puts none on the clip channel of a card setup.

**Proof sketch.** By the list of the steps of the loop. Only a command puts a text on the channel of
the running task, and the condition says that this task may still read it. -/
lemma swallowed_of_step {l : RuntimeLabel} (hex : r.Exclusive) (h0 : r.swallowed = [])
    (hsend : r.Heard l) (h : r.step C ownId l = some (r', outs)) : r'.swallowed = [] := by
  cases step_cases hex h with
  | own l s s' memory memory' outs htask hm hs =>
    rcases own_swallowed h with h' | h'
    · rw [h', h0]
    · exact h'
  | asked cmd paths s s' hidle hsession hsame _ _ _ hclip =>
    rw [swallowed_of_session (by exact hidle) rfl, hsame.kind]
    rw [swallowed_of_session hidle hsession] at h0
    rcases hclip with hclip | ⟨hended, text, rfl, -⟩
    · rw [hclip, h0]
    · -- the text was taken, so the session is no card setup
      have hdeaf : s.deaf = false := by
        simpa [deaf, hsession, hended] using hsend text paths rfl
      have hc : s.kind.isCardSetup = false := (Bool.or_eq_false_iff.1 hdeaf).1
      rw [hc]
      rfl
  | answered => exact h0
  | cancels cmd paths s hidle hsession =>
    rw [swallowed_of_session hidle hsession] at h0
    exact h0
  | starts l kind =>
    rw [swallowed_of_session rfl rfl]
    exact ite_self _
  | forgets l hgone => simp [swallowed, task, hgone]
  | ends l loop hgone hfree =>
    unfold swallowed task
    split
    · rename_i s hs
      split at hs
      · rename_i s' cmd hloop
        exact absurd hloop (hfree s' cmd)
      · have : r.session = some s := hs
        rw [hgone] at this
        cases this
    · rfl

/-- **Texts that no session can carry**, in every run of the command loop. Such a text is reported,
and nothing else happens to it, exactly when no task that reads no text is running. In a whole run
every such text is reported exactly when the run sends no text while such a task is running, and
then nothing ever stands on the clip channel of a card setup.

**Proof sketch.** The loop refuses a text exactly if no task holds the other end of the channel.
With no session to carry the text, a task that holds it is deaf. For the whole run the two
conditions agree step by step, so they are met by the same runs; and what stands on the clip channel
of a card setup was put there by a step that sent a text to a deaf task. -/
theorem send_without_session {labels : List RuntimeLabel} (hrun : Ran C ownId labels r outs) :
    (∀ text paths r' out, r.step C ownId (.command (.sendClipboard text) paths) = some (r', out) →
      r.hasClipboardSession = false → ((refusal ∈ out ∧ r' = r) ↔ r.deaf = false)) ∧
    (Machine.Meets (fun r l => (r.step C ownId l).map Prod.fst) (Reported C ownId) init labels ↔
      Machine.Meets (fun r l => (r.step C ownId l).map Prod.fst) Heard init labels) ∧
    (Machine.Meets (fun r l => (r.step C ownId l).map Prod.fst) Heard init labels →
      r.swallowed = []) := by
  refine ⟨fun text paths r' out hstep hnone => reported_iff hstep hnone, ?_, fun hmeets => ?_⟩
  · refine Machine.meets_congr (I := fun _ => True) (fun _ _ _ _ _ => trivial) ?_ trivial
      (Machine.exec_of_run hrun)
    intro r l r' _ h
    obtain ⟨⟨r₁, out⟩, hstep, rfl⟩ := Option.map_eq_some_iff.1 h
    constructor
    · intro hreported text paths hl
      by_contra hdeaf
      have hdeaf : r.deaf = true := by simpa using hdeaf
      have hnone := hasClipboardSession_of_deaf hdeaf
      have hout := hreported text paths r₁ out hl hstep hnone
      subst hl
      rw [(reported_iff hstep hnone).1 hout] at hdeaf
      cases hdeaf
    · rintro hheard text paths r₂ out₂ rfl hstep₂ hnone
      exact (reported_iff hstep₂ hnone).2 (hheard text paths rfl)
  · have hI : r.Exclusive ∧ r.swallowed = [] := by
      refine Machine.exec_invariant (I := fun r => r.Exclusive ∧ r.swallowed = []) ?_
        ⟨fun _ _ h => (by cases h), rfl⟩ hmeets (Machine.exec_of_run hrun)
      intro r l r' hI hC h
      obtain ⟨⟨r₁, out⟩, hstep, rfl⟩ := Option.map_eq_some_iff.1 h
      exact ⟨exclusive_of_step hI.1 hstep, swallowed_of_step hI.1 hI.2 hC hstep⟩
    exact hI.2

section Sample

open PinAuth PinAuth.Sample

/-- A card setup begins. -/
def setupBegins : List RuntimeLabel :=
  [.command (.startServer (.cardSetup setupCard .lanOnly [])) []]

/-- It cannot create its endpoint, and returns. -/
def setupFails : List RuntimeLabel :=
  setupBegins ++ [.own (.begin 0), .own (.bound (.error (.msg "no network")))]

/-- A text that is sent after a card setup has failed is reported. -/
theorem send_without_session_sample : ∃ r r' outs out, Ran crypto (sampleId 1) setupFails r outs ∧
    r.step crypto (sampleId 1) (.command (.sendClipboard "text") []) = some (r', out) ∧
    refusal ∈ out ∧ r' = r ∧ r.swallowed = [] := by
  obtain ⟨r, outs, hrun⟩ : ∃ r outs, Ran crypto (sampleId 1) setupFails r outs := ⟨_, _, rfl⟩
  have h := send_without_session hrun
  obtain ⟨rfl, rfl⟩ := Prod.mk.inj (Option.some.inj hrun)
  have hsent := (h.1 "text" [] _ _ rfl rfl).2 rfl
  refine ⟨_, _, _, _, hrun, rfl, hsent.1, hsent.2, h.2.2 ?_⟩
  simp [setupFails, setupBegins, Heard]

/-- A clipboard session looks for its peer and finds this device itself: it reports that, and that
it is idle, and closes its endpoint. -/
def dialsItself : List RuntimeLabel :=
  [.command (.connect (.key ⟨⟨.filled 0⟩, setupCard, [], []⟩ (.filled 2) .lanOnly)) [],
    .own (.begin 0), .own (.bound (.ok ())), .own (.resolved (.ok (sampleId 1)))]

/-- A text that is sent while a card setup runs is not reported, and stands on its clip channel. So
does one that is sent while a dialer closes its endpoint, after it has reported that it is idle. -/
theorem deaf_swallows :
    (∃ r r' outs, Ran crypto (sampleId 1) setupBegins r outs ∧ r.hasClipboardSession = false ∧
      r.step crypto (sampleId 1) (.command (.sendClipboard "text") []) = some (r', []) ∧
      r'.swallowed = ["text"]) ∧
    ∃ r r' outs s, Ran crypto (sampleId 1) dialsItself r outs ∧
      .out 0 (.status .idle) ∈ outs ∧ r.hasClipboardSession = false ∧
      r.step crypto (sampleId 1) (.command (.sendClipboard "text") []) = some (r', []) ∧
      r'.session = some s ∧ s.phase = .closing ∧ s.clip.queue = ["text"] :=
  ⟨⟨_, _, _, rfl, rfl, rfl, rfl⟩, _, _, _, _, rfl, by decide, rfl, rfl, rfl, rfl, rfl⟩

end Sample

end Runtime

end Duocb
