import Duocb.Net.Session.Invariant

set_option relaxedAutoImplicit false
set_option autoImplicit false

/-!
# Sessions that outlive a card

A clipboard session goes on connecting for as long as it runs, and the card it holds for its peer
may lapse meanwhile. A host judges the card in every handshake. A dialer judges it once, before it
looks for the peer for the first time, and never again.

A session runs here beside a clock that only moves forward.

## Main definitions

* `Duocb.TimedSession`, `Duocb.TimedSession.step` — a session beside a clock.
* `Duocb.TimedSession.InWindow` — the card was valid at some time since the connection was taken up.

## Main results

* `Duocb.TimedSession.Inv.step` — every step keeps what is known of the card.
* `Duocb.TimedSession.enforces_card` — a host connects only in the window of its card; a dialer does
  so exactly when it dialed before the card lapsed.
-/

namespace Duocb

/-- The time that a step of a task reads off the clock. -/
def SessionLabel.reads : SessionLabel → Option ℕ
  | .begin now | .auth (.policy now) _ => some now
  | .publish (.hosting r) => some r.now
  | _ => none

/-- A session task and the memory it was lent, beside a clock. For the record: when the connection
at hand was taken up. -/
structure TimedSession where
  session : Session
  memory : SessionMemory
  clock : ℕ
  taken : ℕ

/-- What moves a session beside a clock. The steps of the task read the clock; the user and the
runtime act between them. -/
inductive TimedLabel where
  /-- Time passes. -/
  | tick (now : ℕ)
  /-- The task takes a step. -/
  | own (l : SessionLabel)
  /-- The user sends a text. -/
  | send (text : String)
  /-- The session is cancelled. -/
  | cancel

/-- A clipboard session for a peer, by either half. -/
inductive SessionKind.IsFor (identity : KeyIdentity) (peer : PublicKey) : SessionKind → Prop where
  | server (channel : SignalChannel) : IsFor identity peer (.server (.key identity peer channel))
  | client (channel : SignalChannel) : IsFor identity peer (.client (.key identity peer channel))

/-- A place where a task has begun and has not ended its work. -/
def Phase.Live : Phase → Prop
  | .spawned | .refusing | .closing | .ended => False
  | _ => True

namespace TimedSession

/-- A session that was just spawned. -/
def start (sid : ℕ) (kind : SessionKind) (memory : SessionMemory) (now : ℕ) : TimedSession :=
  ⟨.start sid kind, memory, now, now⟩

/-- When the connection of a task that has moved was taken up. -/
def takenUp (c : TimedSession) (phase : Phase) : ℕ :=
  match c.session.phase, phase with
  | .authenticating _ _, _ => c.taken
  | _, .authenticating _ _ => c.clock
  | _, _ => c.taken

/-- The card was valid at some time since the connection was taken up. -/
def InWindow (c : TimedSession) (card : IdentityCard) : Prop :=
  ∃ t, c.taken ≤ t ∧ t ≤ c.clock ∧ card.isValidAt t = true

variable (C : Crypto) (ownId : EndpointId)

/-- One step of a session beside a clock, and what others see of it. A step that reads a time reads
that of the clock. When a connection is taken up, its time is recorded. -/
def step (c : TimedSession) : TimedLabel → Option (TimedSession × List Out)
  | .tick now => if c.clock ≤ now then some ({ c with clock := now }, []) else none
  | .own l =>
    if l.reads.all (· = c.clock) then
      (c.session.step C ownId c.memory l).map fun (s, memory, outs) =>
        (⟨s, memory, c.clock, c.takenUp s.phase⟩, outs)
    else none
  | .send text =>
    let clip := { c.session.clip with queue := c.session.clip.queue ++ [text] }
    some ({ c with session := { c.session with clip := clip } }, [])
  | .cancel => some ({ c with session := { c.session with cancelled := true } }, [])

/-- No dial succeeds once the card has lapsed. -/
def DialsInTime (card : IdentityCard) (c : TimedSession) (l : TimedLabel) : Prop :=
  ∀ conn, l = .own (.dialed (.ok conn)) → c.clock < card.notAfter

/-- What holds of a session beside a clock: its handshake admits only by the card of its time, and a
dialer has found the card valid before. -/
structure Inv (c : TimedSession) : Prop where
  session : c.session.Inv C ownId c.memory
  past : c.taken ≤ c.clock
  admitted : ∀ conn auth, c.session.phase = .authenticating conn auth →
    ∀ key, ⟨.admitKey key, .ok ()⟩ ∈ auth.hist →
      ∃ t, c.taken ≤ t ∧ t ≤ c.clock ∧ auth.policy.admits t key = .ok ()
  begun : ∀ identity peer channel card, c.session.kind = .client (.key identity peer channel) →
    identity.peer peer = some card → c.session.phase.Live → ∃ t, card.isValidAt t = true ∧
      t ≤ c.clock ∧ ∀ conn auth, c.session.phase = .authenticating conn auth → t ≤ c.taken

end TimedSession

/-! ## What a step can do -/

variable {C : Crypto} {ownId : EndpointId}

/-- A key is admitted by the card of the time that its step reads.

**Proof sketch.** By the label. Only the step that answers the operation adds the event, and it
answers by the card of its time. -/
lemma Auth.admits_step {auth auth' : Auth} {memory memory' : SessionMemory} {l : AuthLabel}
    {now : ℕ} (h : auth.step memory l = some (auth', memory')) (hnow : ∀ t, l = .policy t → t = now)
    {key : PublicKey} (hadm : ⟨.admitKey key, .ok ()⟩ ∈ auth'.hist) :
    ⟨.admitKey key, .ok ()⟩ ∈ auth.hist ∨ auth.policy.admits now key = .ok () := by
  cases l with
  | io e =>
    simp only [step] at h
    split at h
    · rename_i o k hprog
      split_ifs at h with he hans
      obtain ⟨rfl, -⟩ := Prod.mk.inj (Option.some.inj h)
      rcases List.mem_append.1 hadm with hadm | hadm
      · exact Or.inl hadm
      · -- whether a key may be served is asked of the host
        obtain rfl := List.mem_singleton.1 hadm
        subst he
        cases hans
    · cases h
  | policy t =>
    obtain rfl := hnow t rfl
    simp only [step] at h
    split at h
    · rename_i o k hprog
      obtain ⟨⟨a, claim⟩, hans, hres⟩ := Option.map_eq_some_iff.1 h
      obtain ⟨rfl, -⟩ := Prod.mk.inj hres
      rcases List.mem_append.1 hadm with hadm | hadm
      · exact Or.inl hadm
      · cases List.mem_singleton.1 hadm
        exact Or.inr (Prod.mk.inj (Option.some.inj hans)).1
    · cases h

namespace Session

variable {s s' : Session} {memory memory' : SessionMemory} {l : SessionLabel} {outs : List Out}

/-- Where a handshake comes from: it was there already, it is new, or it was answered.

**Proof sketch.** By the list of the steps of a task: three of them leave a handshake behind. -/
lemma authenticating_cases (h : Stepped C ownId s memory l s' memory' outs) {conn : Conn}
    {auth' : Auth} (hphase : s'.phase = .authenticating conn auth') :
    s.phase = .authenticating conn auth' ∨ auth'.hist = [] ∨
      ∃ a code auth, l = .auth a code ∧ s.phase = .authenticating conn auth ∧
        auth.step memory a = some (auth', memory') := by
  cases h with
  | stay _ _ _ _ _ phase => exact Or.inl (phase ▸ hphase)
  | begin_ _ conn' existing _ _ _ from_ phase =>
    cases phase.symm.trans hphase
    exact Or.inr (Or.inl rfl)
  | preempts conn' next hist p _ _ from_ _ server serveable phase =>
    cases phase.symm.trans hphase
    exact Or.inr (Or.inl rfl)
  | goOn a code conn' auth _ _ _ _ from_ step phase =>
    cases phase.symm.trans hphase
    exact Or.inr (Or.inr ⟨a, code, auth, rfl, from_, step⟩)
  | move _ _ _ _ _ from_ into => rw [hphase] at into; exact into.elim
  | unpaired _ _ _ _ _ _ _ _ _ _ _ _ into => rw [hphase] at into; exact into.elim
  | receives _ _ _ _ _ _ into => rw [hphase] at into; exact into.elim
  | paired _ _ _ _ _ _ _ _ _ _ _ _ _ _ _ phase => cases phase.symm.trans hphase
  | trades _ _ _ _ _ _ _ _ _ _ _ _ _ phase => cases phase.symm.trans hphase
  | pumps _ _ _ _ _ _ _ _ _ _ _ _ phase => cases phase.symm.trans hphase
  | exhausted _ _ _ _ _ _ _ _ _ _ _ _ _ _ phase => cases phase.symm.trans hphase
  | stops _ _ _ _ _ _ _ _ phase => cases phase.symm.trans hphase
  | closes _ _ _ _ _ _ phase => cases phase.symm.trans hphase
  | givesUp _ _ _ _ _ _ _ phase => cases phase.symm.trans hphase
  | returns => cases hphase
  | returnsIdle => cases hphase

/-- A task is at work only after it has begun.

**Proof sketch.** By the list of the steps of a task. Each that leads to a task at work begins at
one that was, or at one that was just spawned. -/
lemma live_cases (h : Stepped C ownId s memory l s' memory' outs) (hlive : s'.phase.Live) :
    s.phase = .spawned ∨ s.phase.Live := by
  have going : s.phase.Going → s.phase = .spawned ∨ s.phase.Live := by
    intro hg
    cases hp : s.phase with
    | spawned => exact Or.inl rfl
    | refusing | closing | ended => rw [hp] at hg; exact hg.elim
    | _ => exact Or.inr trivial
  cases h with
  | stay _ _ _ _ _ phase => exact Or.inr (phase ▸ hlive)
  | move _ _ _ _ _ from_ => exact going from_
  | begin_ _ _ _ _ _ _ from_ => exact going from_
  | receives _ _ _ _ _ _ into =>
    cases hp : s'.phase <;> rw [hp] at into hlive <;> first | exact into.elim | exact hlive.elim
  | exhausted _ _ _ _ _ _ _ _ _ _ _ _ _ _ phase => rw [phase] at hlive; exact hlive.elim
  | stops _ _ _ _ _ _ _ _ phase => rw [phase] at hlive; exact hlive.elim
  | closes _ _ _ _ _ _ phase => rw [phase] at hlive; exact hlive.elim
  | givesUp _ _ _ _ _ _ _ phase => rw [phase] at hlive; exact hlive.elim
  | returns => exact hlive.elim
  | returnsIdle => exact hlive.elim
  | goOn _ _ _ _ _ _ _ _ from_ => exact Or.inr (by rw [from_]; trivial)
  | paired _ _ _ _ _ _ _ _ _ _ from_ => exact Or.inr (by rw [from_]; trivial)
  | trades _ _ _ _ _ _ _ _ _ _ from_ => exact Or.inr (by rw [from_]; trivial)
  | pumps _ _ _ _ _ _ _ _ _ from_ => exact Or.inr (by rw [from_]; trivial)
  | unpaired _ _ _ _ _ _ _ _ _ _ from_ => exact Or.inr (by rw [from_]; trivial)
  | preempts _ _ _ _ _ _ from_ => exact Or.inr (by rw [from_]; trivial)

/-- A dialer begins with a card that is valid.

**Proof sketch.** The first step reads the clock, and goes on only if no card of the peer is outside
its window. -/
lemma begins_valid {identity : KeyIdentity} {peer : PublicKey} {channel : SignalChannel}
    (hkind : s.kind = .client (.key identity peer channel)) (hspawned : s.phase = .spawned)
    (h : s.step C ownId memory l = some (s', memory', outs)) (hlive : s'.phase.Live) :
    ∃ now, l.reads = some now ∧
      ∀ card, identity.peer peer = some card → card.isValidAt now = true := by
  simp only [step, hkind, clientStep, hspawned] at h
  split at h
  · -- it runs for the first time
    rename_i now _
    split at h
    · obtain ⟨rfl, -, -⟩ := by simpa using h
      exact hlive.elim
    · rename_i hnone
      refine ⟨now, rfl, fun card hcard => ?_⟩
      simpa [hcard, Option.filter] using hnone
  all_goals simp_all

/-- Events of a pump and errors do not report a connection. -/
lemma pump_not_connected {p : Pump} {clip clip' : Clip} {a : PumpLabel} {r : PumpState}
    {out : List PumpOut} (h : p.step clip a = some (r, clip', out)) (conn : Conn) :
    Out.status .connected ∉ out.map (pumpOut conn) := by
  intro hmem
  obtain ⟨o, ho, he⟩ := List.mem_map.1 hmem
  cases Pump.step_cases h <;> simp at ho
  all_goals rcases ho with rfl | rfl <;> simp [pumpOut, Out.status] at he

/-- A dialer that looks for its peer does not report a connection. -/
lemma looking_not_connected (b : Bool) : ConnStatus.connected ≠ lookingStatus b := by
  cases b <;> simp [lookingStatus]

/-- A failed attempt does not report a connection. -/
lemma attempt_not_connected : Out.status .connected ∉ (attemptFailed s).2 := by
  simp only [attemptFailed]
  split_ifs <;> simp [Out.status, Out.error]

/-- A step of a pump reports no connection, unless what comes after its end does. -/
lemma pumpStep_not_connected {conn : Conn} {hist : List HandshakeEvt} {p : Pump} {a : PumpLabel}
    {ended : Session → Session × List Out} (hended : ∀ s, Out.status .connected ∉ (ended s).2)
    (h : s.pumpStep memory conn hist p a ended = some (s', memory', outs)) :
    Out.status .connected ∉ outs := by
  obtain ⟨-, ⟨p', clip', out, hstep, -, rfl⟩ | ⟨r, clip', out, -, ho⟩⟩ := pumpStep_cases h
  · exact pump_not_connected hstep conn
  · intro hmem
    exact hended s (by rw [ho]; exact hmem)

/-- A host reports a connection only when a handshake has succeeded.

**Proof sketch.** By the branches of the step function of a host. The one that reports a connection
is the end of its handshake. -/
lemma server_connected {identity : KeyIdentity} {peer : PublicKey} {channel : SignalChannel}
    (h : serverStep C ownId identity peer channel s memory l = some (s', memory', outs))
    (hconn : Out.status .connected ∈ outs) :
    ∃ a code conn auth auth' key, l = .auth a code ∧ s.phase = .authenticating conn auth ∧
      auth.step memory a = some (auth', memory') ∧ auth'.prog = .ret key := by
  unfold serverStep at h
  split at h
  case h_6 a code hphase =>
    obtain ⟨auth', hstep, ⟨-, rfl, rfl⟩ | ⟨key, hprog, hok⟩ | ⟨e, hprog, herr⟩⟩ := authStep_cases h
    · cases hconn
    · exact ⟨_, _, _, _, auth', key, rfl, hphase, hstep, hprog⟩
    · obtain ⟨-, rfl⟩ := Prod.mk.inj herr
      simp [Out.status] at hconn
  case h_8 a hphase =>
    refine absurd hconn (pumpStep_not_connected (fun s => ?_) h)
    split <;> simp [Out.status]
  case h_12 r hphase =>
    split at h
    · obtain ⟨-, -, rfl⟩ := by simpa using h
      obtain ⟨e, he, heq⟩ := List.mem_map.1 hconn
      obtain ⟨message, rfl⟩ := HostingPublisher.round_events e he
      cases heq
    · cases h
  case h_5 | h_9 =>
    obtain ⟨-, -, -, rfl⟩ := cancel?_cases h
    simp [Out.status] at hconn
  case h_4 | h_10 =>
    split_ifs at h
    all_goals
      obtain ⟨-, -, rfl⟩ := by simpa using h
      simp [Out.status] at hconn
  case h_13 => cases h
  all_goals
    obtain ⟨-, -, rfl⟩ := by simpa [failedToStart] using h
    simp [Out.status, Out.error] at hconn

/-- A dialer reports a connection only when a handshake has succeeded.

**Proof sketch.** By the branches of the step function of a dialer. The one that reports a
connection is the end of its handshake. -/
lemma client_connected {identity : KeyIdentity} {peer : PublicKey}
    (h : clientStep C ownId identity peer s memory l = some (s', memory', outs))
    (hconn : Out.status .connected ∈ outs) :
    ∃ a code conn auth auth' key, l = .auth a code ∧ s.phase = .authenticating conn auth ∧
      auth.step memory a = some (auth', memory') ∧ auth'.prog = .ret key := by
  unfold clientStep at h
  split at h
  case h_10 a code hphase =>
    obtain ⟨auth', hstep, ⟨-, rfl, rfl⟩ | ⟨key, hprog, hok⟩ | ⟨e, hprog, herr⟩⟩ := authStep_cases h
    · cases hconn
    · exact ⟨_, _, _, _, auth', key, rfl, hphase, hstep, hprog⟩
    · obtain ⟨-, rfl⟩ := Prod.mk.inj herr
      simp [Out.status, Out.error] at hconn
  case h_12 a hphase =>
    refine absurd hconn (pumpStep_not_connected (fun s => ?_) h)
    split
    · simp [Out.status]
    · intro hmem
      rcases List.mem_cons.1 hmem with he | hmem
      · cases he
      · exact attempt_not_connected hmem
  case h_6 | h_9 =>
    obtain ⟨-, -, rfl⟩ := by simpa using h
    exact absurd hconn attempt_not_connected
  case h_1 =>
    split at h
    all_goals
      obtain ⟨-, -, rfl⟩ := by simpa using h
      simp [Out.status, Out.error] at hconn
  case h_7 | h_13 | h_14 =>
    obtain ⟨-, -, -, rfl⟩ := cancel?_cases h
    simp [Out.status] at hconn
  case h_4 | h_5 =>
    split_ifs at h
    all_goals
      obtain ⟨-, -, rfl⟩ := by simpa using h
      simp [Out.status, Out.error] at hconn
  case h_17 => cases h
  all_goals
    obtain ⟨-, -, rfl⟩ := by simpa [failedToStart] using h
    simp [Out.status, Out.error, looking_not_connected] at hconn

/-- A clipboard session reports a connection only when a handshake has succeeded. -/
lemma connected_cases {identity : KeyIdentity} {peer : PublicKey}
    (hkind : s.kind.IsFor identity peer) (h : s.step C ownId memory l = some (s', memory', outs))
    (hconn : Out.status .connected ∈ outs) :
    ∃ a code conn auth auth' key, l = .auth a code ∧ s.phase = .authenticating conn auth ∧
      auth.step memory a = some (auth', memory') ∧ auth'.prog = .ret key := by
  unfold step at h
  generalize s.kind = kind at hkind h
  cases hkind with
  | server channel => exact server_connected h hconn
  | client channel => exact client_connected h hconn

/-- A dialer authenticates only what it has dialed.

**Proof sketch.** By the branches of the step function of a dialer. A handshake begins in one of
them, where the endpoint has dialed. -/
lemma dialed_cases {identity : KeyIdentity} {peer : PublicKey}
    (h : clientStep C ownId identity peer s memory l = some (s', memory', outs)) {conn : Conn}
    {auth' : Auth} (hphase : s'.phase = .authenticating conn auth') :
    (∃ auth, s.phase = .authenticating conn auth) ∨ l = .dialed (.ok conn) := by
  have attempt : (attemptFailed s).1.phase ≠ .authenticating conn auth' := by
    simp only [attemptFailed]
    split_ifs <;> simp
  unfold clientStep at h
  split at h
  case h_8 =>
    obtain ⟨rfl, -, -⟩ := by simpa using h
    cases hphase
    exact Or.inr rfl
  case h_10 a code hp =>
    obtain ⟨auth'', hstep, ⟨-, rfl, -⟩ | ⟨key, hprog, hok⟩ | ⟨e, hprog, herr⟩⟩ := authStep_cases h
    · cases hphase
      exact Or.inl ⟨_, hp⟩
    · obtain ⟨rfl, -⟩ := Prod.mk.inj hok
      cases hphase
    · obtain ⟨rfl, -⟩ := Prod.mk.inj herr
      cases hphase
  case h_12 a hp =>
    obtain ⟨-, ⟨p', clip', out, hstep, rfl, -⟩ | ⟨r, clip', out, -, ho⟩⟩ := pumpStep_cases h
    · cases hphase
    · split at ho
      · obtain ⟨rfl, -⟩ := Prod.mk.inj ho
        cases hphase
      · obtain ⟨rfl, -⟩ := Prod.mk.inj ho
        exact absurd hphase attempt
  case h_6 | h_9 =>
    obtain ⟨rfl, -, -⟩ := by simpa using h
    exact absurd hphase attempt
  case h_7 | h_13 | h_14 =>
    obtain ⟨-, rfl, -, -⟩ := cancel?_cases h
    cases hphase
  case h_1 =>
    split at h
    all_goals
      obtain ⟨rfl, -, -⟩ := by simpa using h
      cases hphase
  case h_4 | h_5 =>
    split_ifs at h
    all_goals
      obtain ⟨rfl, -, -⟩ := by simpa using h
      cases hphase
  case h_17 => cases h
  all_goals
    obtain ⟨rfl, -, -⟩ := by simpa [failedToStart] using h
    cases hphase

end Session

namespace TimedSession

variable {c c' : TimedSession} {l : TimedLabel} {outs : List Out}

/-- A session that was just spawned has nothing to answer for. -/
lemma Inv.start {sid now : ℕ} {kind : SessionKind} {memory : SessionMemory}
    (hkey : memory.key = sessionKey kind) (hholds : memory.key.Holds memory.claim) :
    (TimedSession.start sid kind memory now).Inv C ownId where
  session := .of_no_conn hkey hholds (Or.inl trivial)
  past := Nat.le_refl _
  admitted conn auth h := by cases h
  begun identity peer channel card hkind hcard hlive := hlive.elim

/-- A session that does not move itself: time passes, or the user sends texts or cancels it. What
the invariants speak of is unchanged by such a step. -/
structure Still (c c' : TimedSession) : Prop where
  phase : c'.session.phase = c.session.phase
  kind : c'.session.kind = c.session.kind
  attempts : c'.session.attempts = c.session.attempts
  connectedBefore : c'.session.connectedBefore = c.session.connectedBefore
  memory : c'.memory = c.memory
  taken : c'.taken = c.taken
  clock : c.clock ≤ c'.clock

/-- **A step beside a clock** is the session's own, or leaves it where it is and shows nothing.

**Proof sketch.** By the label. Time, texts of the user and a cancellation change no phase. -/
lemma own_or_still (hstep : c.step C ownId l = some (c', outs)) :
    (∃ a s' memory', l = .own a ∧ a.reads.all (· = c.clock) = true ∧
      c.session.step C ownId c.memory a = some (s', memory', outs) ∧
      c' = ⟨s', memory', c.clock, c.takenUp s'.phase⟩) ∨
    ((∀ a, l ≠ .own a) ∧ c.Still c' ∧ outs = []) := by
  cases l with
  | tick now =>
    simp only [TimedSession.step] at hstep
    split_ifs at hstep with hle
    obtain ⟨rfl, rfl⟩ := by simpa using hstep
    exact Or.inr ⟨by simp, ⟨rfl, rfl, rfl, rfl, rfl, rfl, hle⟩, rfl⟩
  | send text =>
    obtain ⟨rfl, rfl⟩ := by simpa [TimedSession.step] using hstep
    exact Or.inr ⟨by simp, ⟨rfl, rfl, rfl, rfl, rfl, rfl, Nat.le_refl _⟩, rfl⟩
  | cancel =>
    obtain ⟨rfl, rfl⟩ := by simpa [TimedSession.step] using hstep
    exact Or.inr ⟨by simp, ⟨rfl, rfl, rfl, rfl, rfl, rfl, Nat.le_refl _⟩, rfl⟩
  | own a =>
    simp only [TimedSession.step] at hstep
    split_ifs at hstep with hreads
    obtain ⟨⟨s', memory', outs'⟩, hs, hres⟩ := Option.map_eq_some_iff.1 hstep
    obtain ⟨rfl, rfl⟩ := Prod.mk.inj hres
    exact Or.inl ⟨a, s', memory', rfl, hreads, hs, rfl⟩

/-- What holds of a session stays true while it does not move. -/
lemma Still.session_inv (h : c.Still c') (hinv : c.session.Inv C ownId c.memory) :
    c'.session.Inv C ownId c'.memory := by
  constructor <;> rw [h.memory] <;> first | rw [h.kind] | skip
  · exact hinv.key
  · exact hinv.holds
  · rw [h.phase]; exact hinv.auth
  · rw [h.phase]; exact hinv.pump
  · rw [h.phase]; exact hinv.trade

/-- What is known of a card stays known while the session does not move. -/
lemma Inv.of_still (h : c.Inv C ownId) (hstill : c.Still c') : c'.Inv C ownId where
  session := hstill.session_inv h.session
  past := by rw [hstill.taken]; exact Nat.le_trans h.past hstill.clock
  admitted := by
    rw [hstill.phase, hstill.taken]
    intro conn auth hp key hadm
    obtain ⟨t, hle, hnow, hok⟩ := h.admitted conn auth hp key hadm
    exact ⟨t, hle, Nat.le_trans hnow hstill.clock, hok⟩
  begun := by
    rw [hstill.phase, hstill.kind, hstill.taken]
    intro identity peer channel card hk hcard hlive
    obtain ⟨t, hvalid, hnow, ht⟩ := h.begun identity peer channel card hk hcard hlive
    exact ⟨t, hvalid, Nat.le_trans hnow hstill.clock, ht⟩

/-- A handshake is judged by the clock while it goes on. -/
lemma reads_policy {a : AuthLabel} {code : Option ℕ} {clock t : ℕ}
    (h : (SessionLabel.auth a code).reads.all (· = clock) = true) (ha : a = .policy t) :
    t = clock := by
  subst ha
  simpa [SessionLabel.reads] using h

/-- **Every step keeps what is known of the card.**

**Proof sketch.** Time passing and the user's requests change neither the task nor its handshake.
When the task moves, its handshake was there already, is new, or was answered now; and it is at work
only if it was before, or has begun now, with a card that is valid. -/
theorem Inv.step (h : c.Inv C ownId) (hstep : c.step C ownId l = some (c', outs)) :
    c'.Inv C ownId := by
  obtain ⟨l, s', memory', rfl, hreads, hs, rfl⟩ | ⟨-, hstill, -⟩ := own_or_still hstep
  swap
  · exact h.of_still hstill
  · have hcases := Session.step_cases hs
    have hsame := Session.step_same hs
    constructor
    · exact h.session.step hs
    · show c.takenUp s'.phase ≤ c.clock
      unfold takenUp
      split
      · exact h.past
      · exact Nat.le_refl _
      · exact h.past
    · intro conn auth' hphase key hadm
      obtain hold | hnew | ⟨a, code, auth, rfl, hold, ha⟩ :=
        Session.authenticating_cases hcases hphase
      · rw [show c.takenUp s'.phase = c.taken by simp [takenUp, hold]]
        exact h.admitted conn auth' hold key hadm
      · rw [hnew] at hadm
        cases hadm
      · rw [show c.takenUp s'.phase = c.taken by simp [takenUp, hold]]
        have hpolicy : auth'.policy = auth.policy := by
          obtain ⟨o, k, r, -, rfl, -⟩ := Auth.step_cases ha
          rfl
        rw [hpolicy]
        rcases Auth.admits_step ha (fun t ht => reads_policy hreads ht) hadm with hadm | hok
        · exact h.admitted conn auth hold key hadm
        · exact ⟨c.clock, h.past, Nat.le_refl _, hok⟩
    · intro identity peer channel card hkind hcard hlive
      rw [hsame.kind] at hkind
      have hbegun : ∃ t, card.isValidAt t = true ∧ t ≤ c.clock ∧
          ∀ conn auth, c.session.phase = .authenticating conn auth → t ≤ c.taken := by
        rcases Session.live_cases hcases hlive with hspawned | hlive
        · obtain ⟨now, hnow, hvalid⟩ := Session.begins_valid hkind hspawned hs hlive
          obtain rfl : now = c.clock := by simpa [hnow] using hreads
          refine ⟨_, hvalid card hcard, Nat.le_refl _, fun conn auth hp => ?_⟩
          cases hspawned.symm.trans hp
        · exact h.begun identity peer channel card hkind hcard hlive
      obtain ⟨t, hvalid, hnow, ht⟩ := hbegun
      refine ⟨t, hvalid, hnow, fun conn auth hphase => ?_⟩
      show t ≤ c.takenUp s'.phase
      rw [hphase]
      unfold takenUp
      split
      · rename_i conn' auth' hp
        exact ht conn' auth' hp
      · exact hnow
      · rename_i hno
        exact absurd rfl (hno conn auth)

/-- What a connection that is reported has behind it: a handshake that has just succeeded. -/
lemma connected_cases {identity : KeyIdentity} {peer : PublicKey}
    (hkind : c.session.kind.IsFor identity peer) (hstep : c.step C ownId l = some (c', outs))
    (hconn : Out.status .connected ∈ outs) :
    ∃ a code conn auth auth' key memory', c.session.phase = .authenticating conn auth ∧
      (SessionLabel.auth a code).reads.all (· = c.clock) = true ∧
      auth.step c.memory a = some (auth', memory') ∧ auth'.prog = .ret key := by
  obtain ⟨l, s', memory', rfl, hreads, hs, rfl⟩ | ⟨-, -, rfl⟩ := own_or_still hstep
  · obtain ⟨a, code, conn, auth, auth', key, rfl, hphase, ha, hdone⟩ :=
      Session.connected_cases hkind hs hconn
    exact ⟨a, code, conn, auth, auth', key, memory', hphase, hreads, ha, hdone⟩
  · cases hconn

/-- A host connects only in the window of its card: the handshake that succeeded has admitted the
key it returns, at a time when its card was valid.

**Proof sketch.** The key of the peer was admitted in the handshake, at a time that is not before
its connection was taken and not after now. Its card was valid at that time. -/
lemma Inv.host_in_window (h : c.Inv C ownId) {identity : KeyIdentity} {peer : PublicKey}
    {channel : SignalChannel} {card : IdentityCard}
    (hkind : c.session.kind = .server (.key identity peer channel))
    (hcard : identity.peer peer = some card) (hstep : c.step C ownId l = some (c', outs))
    (hconn : Out.status .connected ∈ outs) : c.InWindow card := by
  obtain ⟨a, code, conn, auth, auth', key, memory', hphase, hreads, ha, hdone⟩ :=
    connected_cases (by rw [hkind]; exact .server channel) hstep hconn
  have hof := (h.session.auth conn auth hphase)
  obtain ⟨hof', -⟩ := hof.step h.session.key h.session.holds ha
  have hproved := Session.proved_of_done hof' hdone (by rw [hkind]; rfl)
  rw [hkind] at hproved
  obtain ⟨⟨nonce, own, proof, hv⟩, -⟩ := hproved
  -- the key was admitted now, or before in the same handshake
  have hok : ∃ t, c.taken ≤ t ∧ t ≤ c.clock ∧ auth.policy.admits t peer = .ok () := by
    rcases Auth.admits_step ha (fun t ht => reads_policy hreads ht) hv.admitted with hadm | hok
    · exact h.admitted conn auth hphase peer hadm
    · exact ⟨c.clock, h.past, Nat.le_refl _, hok⟩
  obtain ⟨t, hle, hnow, hok⟩ := hok
  obtain ⟨listener, card', hl, hcard', -, hvalid⟩ := Policy.admit_ok hok
  rw [hof.keyAuth, hkind] at hl
  obtain rfl := Option.some.inj hl
  obtain rfl : card' = card := Option.some.inj (hcard'.symm.trans hcard)
  exact ⟨t, hle, hnow, hvalid⟩

/-- A card that was valid is valid until it lapses. -/
lemma valid_until {card : IdentityCard} {t t' : ℕ} (h : card.isValidAt t = true) (hle : t ≤ t')
    (hlt : t' < card.notAfter) : card.isValidAt t' = true := by
  simp [IdentityCard.isValidAt, IdentityCard.isNotYetValidAt, IdentityCard.saturatingAdd] at h ⊢
  omega

/-- A card that is valid has not lapsed. -/
lemma lt_of_valid {card : IdentityCard} {t : ℕ} (h : card.isValidAt t = true) :
    t < card.notAfter := by
  simp only [IdentityCard.isValidAt, Bool.and_eq_true, decide_eq_true_eq] at h
  exact h.2

/-- A connection in the window of a card was taken up before the card lapsed. -/
lemma InWindow.taken_lt {card : IdentityCard} (h : c.InWindow card) : c.taken < card.notAfter := by
  obtain ⟨t, hle, -, hvalid⟩ := h
  exact Nat.lt_of_le_of_lt hle (lt_of_valid hvalid)

/-- A step leaves the kind of the session as it is. -/
lemma kind_of_step (hstep : c.step C ownId l = some (c', outs)) :
    c'.session.kind = c.session.kind := by
  obtain ⟨l, s', memory', rfl, -, hs, rfl⟩ | ⟨-, hstill, -⟩ := own_or_still hstep
  · exact (Session.step_same hs).kind
  · exact hstill.kind

/-- A dialer connects in the window of its card exactly when it dialed before the card lapsed: the
card was valid when the dialer began. -/
lemma Inv.dialer_in_window (h : c.Inv C ownId) {identity : KeyIdentity} {peer : PublicKey}
    {channel : SignalChannel} {card : IdentityCard}
    (hkind : c.session.kind = .client (.key identity peer channel))
    (hcard : identity.peer peer = some card) (hstep : c.step C ownId l = some (c', outs))
    (hconn : Out.status .connected ∈ outs) : c.InWindow card ↔ c.taken < card.notAfter := by
  obtain ⟨a, code, conn, auth, auth', key, memory', hphase, -⟩ :=
    connected_cases (by rw [hkind]; exact .client channel) hstep hconn
  obtain ⟨t, hvalid, -, hbefore⟩ :=
    h.begun identity peer channel card hkind hcard (by rw [hphase]; trivial)
  refine ⟨InWindow.taken_lt, fun hlt => ⟨c.taken, Nat.le_refl _, h.past, ?_⟩⟩
  exact valid_until hvalid (hbefore conn auth hphase) hlt

/-- A dialer that dials in time has dialed what it authenticates before the card lapsed.

**Proof sketch.** A step that begins a handshake is that of the dialed connection, and there the
condition gives the time. A handshake that goes on keeps its time. -/
lemma taken_lt_of_step {identity : KeyIdentity} {peer : PublicKey} {channel : SignalChannel}
    {card : IdentityCard} (hkind : c.session.kind = .client (.key identity peer channel))
    (hold : ∀ conn auth, c.session.phase = .authenticating conn auth → c.taken < card.notAfter)
    (htime : DialsInTime card c l) (hstep : c.step C ownId l = some (c', outs)) :
    ∀ conn auth, c'.session.phase = .authenticating conn auth → c'.taken < card.notAfter := by
  obtain ⟨l, s', memory', rfl, -, hs, rfl⟩ | ⟨-, hstill, -⟩ := own_or_still hstep
  swap
  · rw [hstill.phase, hstill.taken]
    exact hold
  · intro conn auth' hphase
    show c.takenUp s'.phase < card.notAfter
    simp only [Session.step, hkind] at hs
    obtain ⟨auth, hp⟩ | rfl := Session.dialed_cases hs hphase
    · rw [show c.takenUp s'.phase = c.taken by simp [takenUp, hp]]
      exact hold conn auth hp
    · have hclock := htime conn rfl
      rw [hphase]
      unfold takenUp
      split
      · rename_i conn' auth hp
        exact hold conn' auth hp
      · exact hclock
      · rename_i hno
        exact absurd rfl (hno conn auth')

/-- **The card of a session is enforced at every connection**, in every run of a clipboard session
beside a clock that moves forward: a host reports a connection only when its handshake met the card
in its window; a dialer does so exactly when it dialed before the card lapsed. In a run in which no
dial succeeds once the card has lapsed, no connection taken up after that is ever reported.

**Proof sketch.** By the kind of the session. A host admits the key by its card while the handshake
is under way. A dialer has judged its card at the start, so of the window only its end can pass. In
a run that dials in time it has not passed when the connection is taken, and this is kept until the
report. -/
theorem enforces_card {sid now : ℕ} {kind : SessionKind} {memory : SessionMemory}
    {identity : KeyIdentity} {peer : PublicKey} {card : IdentityCard} {labels : List TimedLabel}
    {before : List Out} (hkind : kind.IsFor identity peer) (hcard : identity.peer peer = some card)
    (hkey : memory.key = sessionKey kind) (hholds : memory.key.Holds memory.claim)
    (hrun : Machine.run (step C ownId) (.start sid kind memory now) labels = some (c, before)) :
    (∀ l c' outs, c.step C ownId l = some (c', outs) → Out.status .connected ∈ outs →
      (c.InWindow card ↔ (∃ mode, kind = .server mode) ∨ c.taken < card.notAfter)) ∧
    (Machine.Meets (fun c l => (c.step C ownId l).map Prod.fst) (DialsInTime card)
        (.start sid kind memory now) labels →
      ∀ l c' outs, c.step C ownId l = some (c', outs) → Out.status .connected ∈ outs →
        c.InWindow card ∧ c.taken < card.notAfter) := by
  have hinv : c.Inv C ownId ∧ c.session.kind = kind :=
    Machine.run_invariant (I := fun c _ => c.Inv C ownId ∧ c.session.kind = kind)
      (fun c _ l c' outs hI hstep => ⟨hI.1.step hstep, (kind_of_step hstep).trans hI.2⟩)
      ⟨.start hkey hholds, rfl⟩ hrun
  obtain ⟨hinv, hsame⟩ := hinv
  have exact_ : ∀ l c' outs, c.step C ownId l = some (c', outs) → Out.status .connected ∈ outs →
      (c.InWindow card ↔ (∃ mode, kind = .server mode) ∨ c.taken < card.notAfter) := by
    intro l c' outs hstep hconn
    cases hkind with
    | server channel =>
      exact ⟨fun _ => Or.inl ⟨_, rfl⟩, fun _ => hinv.host_in_window hsame hcard hstep hconn⟩
    | client channel =>
      rw [hinv.dialer_in_window hsame hcard hstep hconn]
      simp
  refine ⟨exact_, fun hmeets l c' outs hstep hconn => ?_⟩
  suffices hin : c.InWindow card from ⟨hin, hin.taken_lt⟩
  rw [exact_ l c' outs hstep hconn]
  cases hkind with
  | server channel => exact Or.inl ⟨_, rfl⟩
  | client channel =>
    refine Or.inr ?_
    have htime : ∀ conn auth, c.session.phase = .authenticating conn auth →
        c.taken < card.notAfter := by
      refine (Machine.exec_invariant (I := fun c =>
        c.session.kind = .client (.key identity peer channel) ∧
          ∀ conn auth, c.session.phase = .authenticating conn auth → c.taken < card.notAfter)
        ?_ ⟨rfl, fun _ _ h => by cases h⟩ hmeets (Machine.exec_of_run hrun)).2
      intro c l c' hI htime h
      obtain ⟨⟨c₁, outs⟩, hstep, rfl⟩ := Option.map_eq_some_iff.1 h
      exact ⟨(kind_of_step hstep).trans hI.1, taken_lt_of_step hI.1 hI.2 htime hstep⟩
    obtain ⟨a, code, conn, auth, auth', key, memory', hphase, -⟩ :=
      connected_cases (by rw [hsame]; exact .client channel) hstep hconn
    exact htime conn auth hphase

section Sample

open Sample

/-- The dialer's key, its peer, and the card it holds for it. -/
def ownKey : PublicKey := .filled 1

/-- The peer's key, -/
def peerKey : PublicKey := .filled 2

/-- and its card, which is valid until second 10. -/
def peerCard : IdentityCard := ⟨peerKey, "host", 0, 10, "card"⟩

/-- What the dialer is started with. -/
def dialSpec : SessionKind :=
  .client (.key ⟨⟨ownKey⟩, ⟨ownKey, "dialer", 0, 10, "card"⟩, [peerCard], []⟩ peerKey .lanOnly)

/-- Primitives under which the peer's signature checks. -/
def keyed : Crypto :=
  { plain with
    parseKey := fun s => if s = peerKey.toHex then some peerKey else none
    verifyAuthSignature := fun key _ proof =>
      if key = peerKey ∧ proof = "sig-l" then .ok () else .error (.msg "Invalid signature") }

/-- The dialer's handshake with its peer until the verdict, -/
def greets : List HandshakeEvt :=
  [⟨.sessionStream, .ok ()⟩, ⟨.randomNonce, "nonce-d"⟩,
    ⟨.write (AuthRequest.keyRequest ownKey.toHex "nonce-d").toFrame, .ok ()⟩,
    ⟨.read MAX_CONTROL_MESSAGE_SIZE,
      .ok (KeyChallenge.new peerKey.toHex "nonce-l" "sig-l").toFrame⟩,
    ⟨.signAuth (KeyAuth.authTranscript "dialer" ownKey peerKey "nonce-d" "nonce-l" joinerId.toString
      hostId.toString), "sig-d"⟩,
    ⟨.write (KeyProof.new "sig-d").toFrame, .ok ()⟩]

/-- and the verdict. -/
def verdict : TimedLabel :=
  .own (.auth (.io ⟨.read MAX_CONTROL_MESSAGE_SIZE, .ok AuthResponse.accept.toFrame⟩) none)

/-- The dialer finds its peer, and authenticates. -/
def dials : List TimedLabel :=
  .own (.resolved (.ok hostId)) :: .own (.dialed (.ok ⟨0, hostId⟩)) ::
    greets.map fun e => .own (.auth (.io e) none)

/-- The dialer begins, -/
def firstDial : List TimedLabel := .own (.begin 0) :: .own (.bound (.ok ())) :: dials

/-- and after its card has lapsed it loses the connection, and dials again. -/
def redial : List TimedLabel :=
  firstDial ++ verdict :: .tick 20 :: .own (.pump (.writeError (.msg "connection lost"))) ::
    .own .slept :: dials

/-- The dialer as it is spawned. -/
def dialer : TimedSession := .start 0 dialSpec ⟨sessionKey dialSpec, .empty, []⟩ 0

/-- Whether the next verdict makes a dialer report a connection that was taken up at a time. -/
def connectsTaken (n : ℕ) (c : TimedSession) : Bool :=
  (c.step keyed joinerId verdict).any fun r => decide (Out.status .connected ∈ r.2 ∧ c.taken = n)

/-- A step that is found to connect does so, with as many items taken as were counted. -/
lemma step_of_connectsTaken {n : ℕ} (h : c.connectsTaken n = true) :
    ∃ c' outs, c.step keyed joinerId verdict = some (c', outs) ∧ Out.status .connected ∈ outs ∧
      c.taken = n := by
  obtain ⟨⟨c', outs⟩, hstep, hr⟩ := (Option.any_eq_true _ _).1 h
  obtain ⟨hconn, htaken⟩ := of_decide_eq_true hr
  exact ⟨c', outs, hstep, hconn, htaken⟩

/-- A dialer whose card is valid connects in its window. -/
theorem enforces_card_sample : ∃ c before, Machine.run (step keyed joinerId) dialer firstDial =
    some (c, before) ∧ ∃ c' outs, c.step keyed joinerId verdict = some (c', outs) ∧
      Out.status .connected ∈ outs ∧ c.InWindow peerCard := by
  have hrun : ((Machine.run (step keyed joinerId) dialer firstDial).any
      fun r => r.1.connectsTaken 0) = true := by decide +kernel
  obtain ⟨⟨c, before⟩, hexec, hr⟩ := (Option.any_eq_true _ _).1 hrun
  obtain ⟨c', outs, hstep, hconn, htaken⟩ := step_of_connectsTaken hr
  have hiff := (enforces_card (.client .lanOnly) (show _ = some peerCard from rfl) rfl
    (SessionKey.holds_empty _) hexec).1 verdict c' outs hstep hconn
  exact ⟨c, before, hexec, c', outs, hstep, hconn, hiff.2 (Or.inr (by rw [htaken]; decide))⟩

/-- A dialer whose card has lapsed connects all the same. -/
theorem redial_ignores_card : ∃ c before, Machine.run (step keyed joinerId) dialer redial =
    some (c, before) ∧ peerCard.notAfter ≤ c.taken ∧ ¬ c.InWindow peerCard ∧
      ∃ c' outs, c.step keyed joinerId verdict = some (c', outs) ∧
        Out.status .connected ∈ outs := by
  have hrun : ((Machine.run (step keyed joinerId) dialer redial).any
      fun r => r.1.connectsTaken 20) = true := by decide +kernel
  obtain ⟨⟨c, before⟩, hexec, hr⟩ := (Option.any_eq_true _ _).1 hrun
  obtain ⟨c', outs, hstep, hconn, htaken⟩ := step_of_connectsTaken hr
  refine ⟨c, before, hexec, by rw [htaken]; decide, fun hin => ?_, c', outs, hstep, hconn⟩
  have hlt := hin.taken_lt
  rw [htaken] at hlt
  revert hlt
  decide

end Sample

end TimedSession

end Duocb
