import Duocb.Net.Session

set_option relaxedAutoImplicit false
set_option autoImplicit false

/-!
# What a session task can do

Whatever its kind, a session task that takes a step stays where it is, moves on without touching
its clip channel, answers an authentication, starts a pump, steps a pump, loses a pump, or ends.
Everything that is said of a session over a whole run is read off this one list.

## Main definitions

* `Duocb.Session.Stepped` — the list.
* `Duocb.program`, `Duocb.keyAuthOf` — the handshake of a session, by its kind.

## Main results

* `Duocb.Session.step_cases` — a step of a session is one of the list.
-/

namespace Duocb

/-- An output that neither carries clipboard content or a card, nor confirms a text, nor reports
the end of the session. -/
def Out.Quiet : Out → Prop
  | .frame _ _ | .event (.itemReceived _ _) | .event .itemSent | .event (.status .idle)
  | .event (.peerCardReceived _) => False
  | _ => True

/-- The peer a clipboard session is for. -/
def SessionKind.peer : SessionKind → Option PublicKey
  | .server (.key _ peer _) | .client (.key _ peer _) => some peer
  | _ => none

/-- What a listener of this kind holds a dialer to. -/
def keyAuthOf : SessionKind → Option KeyListener
  | .server (.key identity peer _) => some ⟨identity, peer⟩
  | _ => none

/-- Whether a listener of this kind honours PINs. -/
def pinCacheOf : SessionKind → Bool
  | .server (.cardSetup _ _ _) => true
  | _ => false

/-- The handshake a session of this kind runs on a connection. A host runs the listener's half, and
a dialer the half of the method that it is started with. -/
def program (C : Crypto) (ownId : EndpointId) (kind : SessionKind) (remoteId : EndpointId) :
    Handshake (Option PublicKey) :=
  match kind with
  | .server _ => authAsListener C (keyAuthOf kind) remoteId ownId
  | .client (.key identity peer _) => authAsDialerKey C identity.identity peer remoteId ownId
  | .client (.cardSetup pin _ _ _ _) => authAsDialerPin C pin remoteId ownId

/-- A place where a task waits without a connection of its own, and has work to do. -/
def Phase.Plain : Phase → Prop
  | .spawned | .starting | .accepting | .resolving | .connecting | .sleeping => True
  | _ => False

/-- A place from which a task only goes on to its end. -/
def Phase.Over : Phase → Prop
  | .refusing | .closing | .ended => True
  | _ => False

/-- A place where a task has work to do other than pumping. -/
def Phase.Going : Phase → Prop
  | .pumping _ _ _ | .refusing | .closing | .ended => False
  | _ => True

/-- A place where a task has no pump. -/
def Phase.NoPump : Phase → Prop
  | .pumping _ _ _ => False
  | _ => True

namespace Session

/-- An authentication that has not begun yet. -/
def freshAuth (C : Crypto) (ownId : EndpointId) (kind : SessionKind)
    (existing : Option ClaimedPeer) (conn : Conn) : Auth :=
  ⟨⟨keyAuthOf kind, pinCacheOf kind, conn.remoteId, existing⟩, [],
    program C ownId kind conn.remoteId⟩

/-- What a step never changes. -/
structure Same (s s' : Session) : Prop where
  sid : s'.sid = s.sid
  kind : s'.kind = s.kind
  cancelled : s'.cancelled = s.cancelled

/-- What a step does to the memory the task was lent: it leaves it, or answers an authentication. -/
def Answered (s : Session) (memory memory' : SessionMemory) : Prop :=
  memory' = memory ∨ ∃ conn auth auth' l, s.phase = .authenticating conn auth ∧
    auth.step memory l = some (auth', memory')

/-- A task that asked nothing of its memory was answered as it is. -/
lemma Answered.refl (s : Session) (memory : SessionMemory) : s.Answered memory memory := Or.inl rfl

/-- What an authentication asks of the memory is answered as the task's own question. -/
lemma Answered.of_step {s : Session} {memory memory' : SessionMemory} {conn : Conn}
    {auth auth' : Auth} {l : AuthLabel} (hphase : s.phase = .authenticating conn auth)
    (h : auth.step memory l = some (auth', memory')) : s.Answered memory memory' :=
  Or.inr ⟨conn, auth, auth', l, hphase, h⟩

/-- What a task asks of its memory is lent to it. -/
lemma Answered.lent {s : Session} {memory memory' : SessionMemory}
    (h : s.Answered memory memory') : Lent memory memory' := by
  obtain rfl | ⟨conn, auth, auth', l, -, hstep⟩ := h
  · exact Lent.refl _
  · exact Auth.step_lent hstep

/-- **Everything a step of a session task can do.** It is what the four step functions have in
common, so that an invariant of the task needs no look at the single branches. -/
inductive Stepped (C : Crypto) (ownId : EndpointId) (s : Session) (memory : SessionMemory) :
    SessionLabel → Session → SessionMemory → List Out → Prop where
  /-- It stays where it is: its publisher moves, or a dialer is turned away. -/
  | stay (l : SessionLabel) (s' : Session) (memory' : SessionMemory) (outs : List Out)
      (same : Same s s') (phase : s'.phase = s.phase) (clip : s'.clip = s.clip)
      (attempts : s'.attempts = s.attempts) (claim : memory'.claim = memory.claim)
      (lent : Lent memory memory') (quiet : ∀ o ∈ outs, o.Quiet) :
      Stepped C ownId s memory l s' memory' outs
  /-- It moves on; the claim changes only in an authentication. -/
  | move (l : SessionLabel) (s' : Session) (memory' : SessionMemory) (outs : List Out)
      (same : Same s s') (from_ : s.phase.Going) (into : s'.phase.Plain) (clip : s'.clip = s.clip)
      (lent : s.Answered memory memory') (quiet : ∀ o ∈ outs, o.Quiet) :
      Stepped C ownId s memory l s' memory' outs
  /-- It begins to authenticate a connection. -/
  | begin_ (l : SessionLabel) (conn : Conn) (existing : Option ClaimedPeer) (s' : Session)
      (outs : List Out) (same : Same s s') (from_ : s.phase.Going)
      (phase : s'.phase = .authenticating conn (freshAuth C ownId s.kind existing conn))
      (clip : s'.clip = s.clip) (quiet : ∀ o ∈ outs, o.Quiet) :
      Stepped C ownId s memory l s' memory outs
  /-- Its authentication goes on. -/
  | goOn (l : AuthLabel) (code : Option ℕ) (conn : Conn) (auth auth' : Auth) (s' : Session)
      (memory' : SessionMemory) (same : Same s s') (from_ : s.phase = .authenticating conn auth)
      (step : auth.step memory l = some (auth', memory'))
      (phase : s'.phase = .authenticating conn auth') (clip : s'.clip = s.clip) :
      Stepped C ownId s memory (.auth l code) s' memory' []
  /-- Its authentication succeeded, and it starts to pump. -/
  | paired (l : AuthLabel) (code : Option ℕ) (conn : Conn) (auth auth' : Auth)
      (key : Option PublicKey) (s' : Session) (memory' : SessionMemory) (outs : List Out)
      (same : Same s s') (from_ : s.phase = .authenticating conn auth)
      (step : auth.step memory l = some (auth', memory')) (done : auth'.prog = .ret key)
      (peer : s.kind.peer.isSome) (attempts : ∀ spec, s.kind = .client spec → s'.attempts = 0)
      (phase : s'.phase = .pumping conn auth'.hist .start) (clip : s'.clip = s.clip)
      (quiet : ∀ o ∈ outs, o.Quiet) : Stepped C ownId s memory (.auth l code) s' memory' outs
  /-- Its authentication succeeded, and it starts to trade cards. -/
  | trades (l : AuthLabel) (code : Option ℕ) (conn : Conn) (auth auth' : Auth)
      (key : Option PublicKey) (s' : Session) (memory' : SessionMemory) (outs : List Out)
      (same : Same s s') (from_ : s.phase = .authenticating conn auth)
      (step : auth.step memory l = some (auth', memory')) (done : auth'.prog = .ret key)
      (phase : s'.phase = .exchanging conn) (clip : s'.clip = s.clip)
      (quiet : ∀ o ∈ outs, o.Quiet) :
      Stepped C ownId s memory (.auth l code) s' memory' outs
  /-- Its pump takes a step. -/
  | pumps (l : PumpLabel) (conn : Conn) (hist : List HandshakeEvt) (p p' : Pump) (clip' : Clip)
      (out : List PumpOut) (s' : Session) (same : Same s s')
      (from_ : s.phase = .pumping conn hist p)
      (step : p.step s.clip l = some (.inl p', clip', out)) (peer : s.kind.peer.isSome)
      (phase : s'.phase = .pumping conn hist p') (clip : s'.clip = clip')
      (attempts : s'.attempts = s.attempts) :
      Stepped C ownId s memory (.pump l) s' memory (out.map (pumpOut conn))
  /-- Its pump ends by itself, and the peer is gone. -/
  | unpaired (l : PumpLabel) (conn : Conn) (hist : List HandshakeEvt) (p : Pump)
      (r : Except Error Unit) (clip' : Clip) (out : List PumpOut) (s' : Session) (outs : List Out)
      (same : Same s s') (from_ : s.phase = .pumping conn hist p)
      (step : p.step s.clip l = some (.inr r, clip', out)) (into : s'.phase.Plain)
      (clip : s'.clip = s.clip) (gone : .event .peerDisconnected ∈ outs)
      (quiet : ∀ o ∈ outs, o.Quiet) : Stepped C ownId s memory (.pump l) s' memory outs
  /-- Its pump ends by itself, and a dialer that has no attempt left gives up. -/
  | exhausted (l : PumpLabel) (conn : Conn) (hist : List HandshakeEvt) (p : Pump)
      (r : Except Error Unit) (clip' : Clip) (out : List PumpOut) (s' : Session) (message : String)
      (same : Same s s') (from_ : s.phase = .pumping conn hist p)
      (client : ∃ spec, s.kind = .client spec) (step : p.step s.clip l = some (.inr r, clip', out))
      (attempts : MAX_CONNECT_ATTEMPTS ≤ s.attempts + 1) (phase : s'.phase = .closing)
      (clip : s'.clip = s.clip) :
      Stepped C ownId s memory (.pump l) s' memory
        [.event .peerDisconnected, .error message, .status .idle]
  /-- It is cancelled, and its pump is dropped. -/
  | stops (l : SessionLabel) (conn : Conn) (hist : List HandshakeEvt) (p : Pump) (s' : Session)
      (same : Same s s') (from_ : s.phase = .pumping conn hist p) (cancelled : s.cancelled = true)
      (phase : s'.phase = .closing) (clip : s'.clip = s.clip) :
      Stepped C ownId s memory l s' memory [.close conn SHUTDOWN_CODE]
  /-- Its pump is dropped for a new connection of the claimed peer. -/
  | preempts (conn next : Conn) (hist : List HandshakeEvt) (p : Pump) (s' : Session)
      (same : Same s s') (from_ : s.phase = .pumping conn hist p) (cancelled : s.cancelled = false)
      (server : ∃ mode, s.kind = .server mode)
      (serveable : memory.claim.serveable next.remoteId false = true)
      (phase : s'.phase =
        .authenticating next (freshAuth C ownId s.kind memory.claim.peer next))
      (clip : s'.clip = s.clip) :
      Stepped C ownId s memory (.incoming next) s' memory
        [.close conn SHUTDOWN_CODE, .status .authenticating]
  /-- It has received a card, and is done. -/
  | receives (conn : Conn) (card : IdentityCard) (s' : Session) (outs : List Out)
      (same : Same s s') (from_ : s.phase = .exchanging conn) (into : s'.phase.Over)
      (clip : s'.clip = s.clip)
      (outs_eq : outs = [.event (.peerCardReceived card), .close conn SHUTDOWN_CODE] ∨
        outs = [.close conn SHUTDOWN_CODE, .event (.peerCardReceived card)]) :
      Stepped C ownId s memory (.exchanged (.ok card)) s' memory outs
  /-- It goes on to close its endpoint; a dialer that gives up reports that it is idle first. -/
  | closes (l : SessionLabel) (s' : Session) (memory' : SessionMemory) (outs : List Out)
      (same : Same s s') (from_ : s.phase.NoPump) (phase : s'.phase = .closing)
      (clip : s'.clip = s.clip) (lent : s.Answered memory memory') (quiet : ∀ o ∈ outs, o.Quiet) :
      Stepped C ownId s memory l s' memory' outs
  | givesUp (l : SessionLabel) (s' : Session) (memory' : SessionMemory) (message : String)
      (same : Same s s') (from_ : s.phase.NoPump) (client : ∃ spec, s.kind = .client spec)
      (phase : s'.phase = .closing) (clip : s'.clip = s.clip) (lent : s.Answered memory memory') :
      Stepped C ownId s memory l s' memory' [.error message, .status .idle]
  /-- It returns. -/
  | returns (l : SessionLabel) (outs : List Out) (from_ : s.phase.NoPump)
      (quiet : ∀ o ∈ outs, o.Quiet) : Stepped C ownId s memory l s.finish memory outs
  | returnsIdle (l : SessionLabel) (outs : List Out) (from_ : s.phase.NoPump)
      (quiet : ∀ o ∈ outs, o.Quiet) :
      Stepped C ownId s memory l s.finish memory (outs ++ [.status .idle])

/-! ## Every step is one of the list -/

/-- A session at another place is there, -/
@[simp] lemma at'_phase (s : Session) (phase : Phase) : (s.at' phase).phase = phase := rfl

/-- with its clip channel -/
@[simp] lemma at'_clip (s : Session) (phase : Phase) : (s.at' phase).clip = s.clip := rfl

/-- and its attempts as they were. -/
@[simp] lemma at'_attempts (s : Session) (phase : Phase) :
    (s.at' phase).attempts = s.attempts := rfl

/-- A session is the same as itself, -/
lemma Same.refl (s : Session) : Same s s := ⟨rfl, rfl, rfl⟩

/-- and as itself at another place. -/
lemma same_at' (s : Session) (phase : Phase) : Same s (s.at' phase) := ⟨rfl, rfl, rfl⟩

end Session

/-- Every status but idle is quiet. -/
@[simp] lemma quiet_status (status : ConnStatus) :
    (Out.status status).Quiet ↔ status ≠ .idle := by
  cases status <;> simp [Out.status, Out.Quiet]

/-- An error is quiet. -/
@[simp] lemma quiet_error (message : String) : (Out.error message).Quiet := trivial

/-- Closing a connection is quiet. -/
@[simp] lemma quiet_close (conn : Conn) (code : ℕ) : (Out.close conn code).Quiet := trivial

/-- The news that a peer is paired is quiet. -/
@[simp] lemma quiet_paired (id : String) (key : Option PublicKey) :
    (Out.event (.peerPaired id key)).Quiet := trivial

/-- So is the news that it is gone, -/
@[simp] lemma quiet_disconnected : (Out.event .peerDisconnected).Quiet := trivial

/-- the news that the host is ready, -/
@[simp] lemma quiet_serverReady (id : String) (key : Option PublicKey) :
    (Out.event (.serverReady id key)).Quiet := trivial

/-- and the news that the dialer is. -/
@[simp] lemma quiet_clientReady (id : String) (key : Option PublicKey) :
    (Out.event (.clientReady id key)).Quiet := trivial

/-- A phase that goes on its way pumps nothing. -/
lemma Phase.Going.noPump {phase : Phase} (h : phase.Going) : phase.NoPump := by
  cases phase with
  | pumping => exact h
  | _ => trivial

/-- A pump that ends surfaces nothing with it and leaves the clip channel as it is. -/
lemma Pump.step_inr {p : Pump} {clip clip' : Clip} {l : PumpLabel} {r : Except Error Unit}
    {out : List PumpOut} (h : p.step clip l = some (.inr r, clip', out)) :
    clip' = clip ∧ out = [] := by
  cases Pump.step_cases h <;> exact ⟨rfl, rfl⟩

namespace Session

variable {C : Crypto} {ownId : EndpointId} {s s' : Session} {memory memory' : SessionMemory}
  {outs : List Out}

/-- An answer of an authentication: it goes on, or what comes after its end.

**Proof sketch.** By what is left of the program: it goes on, or it has returned, or it has failed.
-/
lemma authStep_cases {conn : Conn} {auth : Auth} {l : AuthLabel}
    {ok : List HandshakeEvt → Option PublicKey → Session × List Out}
    {err : SessionMemory → Error → Session × List Out}
    (h : s.authStep memory conn auth l ok err = some (s', memory', outs)) :
    ∃ auth', auth.step memory l = some (auth', memory') ∧
      (((∃ o k, auth'.prog = .call o k) ∧ s' = s.at' (.authenticating conn auth') ∧ outs = []) ∨
        (∃ key, auth'.prog = .ret key ∧ ok auth'.hist key = (s', outs)) ∨
        ∃ e, auth'.prog = .fail e ∧ err memory' e = (s', outs)) := by
  unfold authStep at h
  obtain ⟨⟨auth', m⟩, hstep, hres⟩ := Option.map_eq_some_iff.1 h
  cases hprog : auth'.prog with
  | call o k =>
    simp only [hprog, Prod.mk.injEq] at hres
    obtain ⟨rfl, rfl, rfl⟩ := hres
    exact ⟨auth', hstep, Or.inl ⟨⟨o, k, hprog⟩, rfl, rfl⟩⟩
  | ret key =>
    simp only [hprog, Prod.mk.injEq] at hres
    obtain ⟨rfl, rfl, rfl⟩ := hres
    exact ⟨auth', hstep, Or.inr (Or.inl ⟨key, hprog, rfl⟩)⟩
  | fail e =>
    simp only [hprog, Prod.mk.injEq] at hres
    obtain ⟨rfl, rfl, rfl⟩ := hres
    exact ⟨auth', hstep, Or.inr (Or.inr ⟨e, hprog, rfl⟩)⟩

/-- A step of a pump: it goes on, or what comes after its end.

**Proof sketch.** By what the pump comes to: it goes on, or it has ended. -/
lemma pumpStep_cases {conn : Conn} {hist : List HandshakeEvt} {p : Pump} {l : PumpLabel}
    {ended : Session → Session × List Out}
    (h : s.pumpStep memory conn hist p l ended = some (s', memory', outs)) :
    memory' = memory ∧
      ((∃ p' clip' out, p.step s.clip l = some (.inl p', clip', out) ∧
          s' = ({ s with clip := clip' } : Session).at' (.pumping conn hist p') ∧
          outs = out.map (pumpOut conn)) ∨
        ∃ r clip' out, p.step s.clip l = some (.inr r, clip', out) ∧ ended s = (s', outs)) := by
  unfold pumpStep at h
  obtain ⟨⟨p', clip', out⟩, hstep, hres⟩ := Option.map_eq_some_iff.1 h
  cases p' with
  | inl p' =>
    simp only [Prod.mk.injEq] at hres
    obtain ⟨rfl, rfl, rfl⟩ := hres
    exact ⟨rfl, Or.inl ⟨p', clip', out, hstep, rfl, rfl⟩⟩
  | inr r =>
    obtain ⟨rfl, rfl⟩ := Pump.step_inr hstep
    simp only [List.map_nil, List.nil_append, Prod.mk.injEq] at hres
    obtain ⟨rfl, rfl, rfl⟩ := hres
    exact ⟨rfl, Or.inr ⟨r, _, _, hstep, rfl⟩⟩

/-- A session that is cancelled closes its endpoint, and changes nothing else. -/
lemma cancel?_cases {outs' : List Out} (h : s.cancel? memory outs' = some (s', memory', outs)) :
    s.cancelled = true ∧ s' = s.at' .closing ∧ memory' = memory ∧ outs = outs' := by
  unfold cancel? at h
  split_ifs at h with hc
  obtain ⟨rfl, rfl, rfl⟩ := by simpa using h
  exact ⟨hc, rfl, rfl, rfl⟩

/-- A session that is cancelled before it has a pump closes. -/
lemma cancelled_cases {l : SessionLabel} (hfrom : s.phase.NoPump)
    (h : s.cancel? memory [] = some (s', memory', outs)) :
    Stepped C ownId s memory l s' memory' outs := by
  obtain ⟨-, rfl, rfl, rfl⟩ := cancel?_cases h
  exact .closes _ _ _ _ (same_at' _ _) hfrom rfl rfl (.refl _ _) (by simp)

/-- A session whose endpoint could not be created says so, and is over. -/
lemma failedToStart_cases {e : Error} (hphase : s.phase = .starting)
    (h : some (s.failedToStart memory e) = some (s', memory', outs)) :
    Stepped C ownId s memory (.bound (.error e)) s' memory' outs := by
  obtain ⟨rfl, rfl, rfl⟩ := by simpa [failedToStart] using h
  exact .returnsIdle _ [.error ("Failed to start: " ++ e.display)] (by rw [hphase]; trivial)
    (by simp)

/-- The publisher of a clipboard session surfaces nothing but errors. -/
lemma quiet_round {p : HostingPublisher} {identity : KeyIdentity} {peer : PublicKey}
    {channel : SignalChannel} {r : HostingRound} :
    ∀ o ∈ (p.round identity peer channel r).2.map Out.event, o.Quiet := by
  intro o ho
  obtain ⟨e, he, rfl⟩ := List.mem_map.1 ho
  obtain ⟨message, rfl⟩ := HostingPublisher.round_events e he
  trivial

/-- A hosting clipboard session takes one of the listed steps.

**Proof sketch.** One constructor of the relation for each branch of the step function. -/
lemma serverStep_cases {identity : KeyIdentity} {peer : PublicKey} {channel : SignalChannel}
    {l : SessionLabel} (hkind : s.kind = .server (.key identity peer channel))
    (h : serverStep C ownId identity peer channel s memory l = some (s', memory', outs)) :
    Stepped C ownId s memory l s' memory' outs := by
  have hpeer : s.kind.peer.isSome := by rw [hkind]; rfl
  have hclient : ∀ spec, s.kind ≠ .client spec := fun spec => by rw [hkind]; simp
  have hfresh : ∀ conn : Conn,
    (⟨⟨some ⟨identity, peer⟩, false, conn.remoteId, memory.claim.peer⟩, [],
      authAsListener C (some ⟨identity, peer⟩) conn.remoteId ownId⟩ : Auth) =
      freshAuth C ownId s.kind memory.claim.peer conn := fun conn => by rw [hkind]; rfl
  unfold serverStep at h
  split at h
  · -- spawned
    rename_i hphase
    obtain ⟨rfl, rfl, rfl⟩ := by simpa using h
    exact .move _ _ _ _ (same_at' _ _) (by rw [hphase]; trivial) trivial rfl (.refl _ _) (by simp)
  · -- the endpoint could not be created
    rename_i e hphase
    exact failedToStart_cases hphase h
  · rename_i hphase
    obtain ⟨rfl, rfl, rfl⟩ := by simpa using h
    exact .move _ _ _ _ ⟨rfl, rfl, rfl⟩ (by rw [hphase]; trivial) trivial rfl (.refl _ _)
      (by simp)
  · -- accepting, a connection comes in
    rename_i conn hphase
    split_ifs at h with hserve
    · obtain ⟨rfl, rfl, rfl⟩ := by simpa using h
      exact .begin_ _ conn memory.claim.peer _ _ (same_at' _ _) (by rw [hphase]; trivial)
        (by rw [← hfresh]; rfl) rfl (by simp)
    · obtain ⟨rfl, rfl, rfl⟩ := by simpa using h
      exact .stay _ _ _ _ (Same.refl _) rfl rfl rfl rfl (Lent.refl _) (by simp)
  · rename_i hphase
    exact cancelled_cases (by rw [hphase]; trivial) h
  · -- authenticating
    rename_i conn auth l code hphase
    obtain ⟨auth', hstep, ⟨-, rfl, rfl⟩ | ⟨key, hprog, hok⟩ | ⟨e, hprog, herr⟩⟩ := authStep_cases h
    · exact .goOn l code conn auth auth' _ _ (same_at' _ _) hphase hstep rfl rfl
    · obtain ⟨rfl, rfl⟩ := Prod.mk.inj hok
      exact .paired l code conn auth auth' key _ _ _ (same_at' _ _) hphase hstep hprog hpeer
        (fun spec hs => absurd hs (hclient spec)) rfl rfl (by simp)
    · obtain ⟨rfl, rfl⟩ := Prod.mk.inj herr
      exact .move _ _ _ _ (same_at' _ _) (by rw [hphase]; trivial) trivial rfl
        (.of_step hphase hstep) (by simp)
  · rename_i conn auth hphase
    obtain ⟨rfl, rfl, rfl⟩ := by simpa using h
    exact .move _ _ _ _ (same_at' _ _) (by rw [hphase]; trivial) trivial rfl (.refl _ _) (by simp)
  · -- pumping
    rename_i conn hist p l hphase
    obtain ⟨rfl, ⟨p', clip', out, hstep, rfl, rfl⟩ | ⟨r, clip', out, hstep, hover⟩⟩ :=
      pumpStep_cases h
    · exact .pumps l conn hist p p' clip' out _ ⟨rfl, rfl, rfl⟩ hphase hstep hpeer rfl rfl rfl
    · split_ifs at hover with hc
      · obtain ⟨rfl, rfl⟩ := Prod.mk.inj hover
        exact .stops _ conn hist p _ (same_at' _ _) hphase hc rfl rfl
      · obtain ⟨rfl, rfl⟩ := Prod.mk.inj hover
        exact .unpaired l conn hist p r clip' out _ _ (same_at' _ _) hphase hstep trivial rfl
          (by simp) (by simp)
  · rename_i conn hist p hphase
    obtain ⟨hc, rfl, rfl, rfl⟩ := cancel?_cases h
    exact .stops _ conn hist p _ (same_at' _ _) hphase hc rfl rfl
  · -- pumping, and a connection comes in
    rename_i conn hist p next hphase
    split_ifs at h with hserve hc
    · obtain ⟨rfl, rfl, rfl⟩ := by simpa using h
      exact .stops _ conn hist p _ (same_at' _ _) hphase hc rfl rfl
    · obtain ⟨rfl, rfl, rfl⟩ := by simpa using h
      exact .preempts conn next hist p _ (same_at' _ _) hphase (by simpa using hc) ⟨_, hkind⟩
        hserve (by rw [← hfresh]; rfl) rfl
    · obtain ⟨rfl, rfl, rfl⟩ := by simpa using h
      exact .stay _ _ _ _ (Same.refl _) rfl rfl rfl rfl (Lent.refl _) (by simp)
  · rename_i hphase
    obtain ⟨rfl, rfl, rfl⟩ := by simpa using h
    exact .returns _ _ (by rw [hphase]; trivial) (by simp)
  · -- the publisher
    split at h
    · obtain ⟨rfl, rfl, rfl⟩ := by simpa using h
      exact .stay _ _ _ _ ⟨rfl, rfl, rfl⟩ rfl rfl rfl rfl (Lent.refl _) quiet_round
    · cases h
  · cases h

/-- What follows a failed attempt of a dialer without a pump. -/
lemma attemptFailed_cases {l : SessionLabel} {spec : DialSpec} (hkind : s.kind = .client spec)
    (hfrom : s.phase.Going) (h : attemptFailed s = (s', outs)) :
    Stepped C ownId s memory l s' memory outs := by
  simp only [attemptFailed] at h
  split_ifs at h with hb ha
  · obtain ⟨rfl, rfl⟩ := Prod.mk.inj h
    exact .move _ _ _ _ ⟨rfl, rfl, rfl⟩ hfrom trivial rfl (.refl _ _) (by simp)
  · obtain ⟨rfl, rfl⟩ := Prod.mk.inj h
    exact .givesUp _ _ _ _ ⟨rfl, rfl, rfl⟩ hfrom.noPump ⟨spec, hkind⟩ rfl rfl (.refl _ _)
  · obtain ⟨rfl, rfl⟩ := Prod.mk.inj h
    exact .move _ _ _ _ ⟨rfl, rfl, rfl⟩ hfrom trivial rfl (.refl _ _) (by simp)

/-- What follows the end of a dialer's pump.

**Proof sketch.** By the branches of a failed attempt: the dialer has never connected, or it has no
attempt left, or it waits for the next one. -/
lemma dropped_cases {l : PumpLabel} {spec : DialSpec} {conn : Conn} {hist : List HandshakeEvt}
    {p : Pump} {r : Except Error Unit} {clip' : Clip} {out : List PumpOut}
    (hkind : s.kind = .client spec) (hphase : s.phase = .pumping conn hist p)
    (hstep : p.step s.clip l = some (.inr r, clip', out)) (h : attemptFailed s = (s', outs)) :
    Stepped C ownId s memory (.pump l) s' memory (.event .peerDisconnected :: outs) := by
  simp only [attemptFailed] at h
  split_ifs at h with hb ha
  · obtain ⟨rfl, rfl⟩ := Prod.mk.inj h
    exact .unpaired l conn hist p r clip' out _ _ ⟨rfl, rfl, rfl⟩ hphase hstep trivial rfl
      (by simp) (by simp)
  · obtain ⟨rfl, rfl⟩ := Prod.mk.inj h
    exact .exhausted l conn hist p r clip' out _ _ ⟨rfl, rfl, rfl⟩ hphase ⟨spec, hkind⟩ hstep ha
      rfl rfl
  · obtain ⟨rfl, rfl⟩ := Prod.mk.inj h
    exact .unpaired l conn hist p r clip' out _ _ ⟨rfl, rfl, rfl⟩ hphase hstep trivial rfl
      (by simp) (by simp)

/-- A dialing clipboard session takes one of the listed steps.

**Proof sketch.** One constructor of the relation for each branch of the step function. -/
lemma clientStep_cases {identity : KeyIdentity} {peer : PublicKey} {channel : SignalChannel}
    {l : SessionLabel} (hkind : s.kind = .client (.key identity peer channel))
    (h : clientStep C ownId identity peer s memory l = some (s', memory', outs)) :
    Stepped C ownId s memory l s' memory' outs := by
  have hpeer : s.kind.peer.isSome := by rw [hkind]; rfl
  unfold clientStep at h
  split at h
  · -- spawned: a card outside its window ends the task here
    rename_i now hphase
    split at h
    · rename_i card hcard
      obtain ⟨rfl, rfl, rfl⟩ := by simpa using h
      exact .returnsIdle _ [.status .starting, .error (expiredCardMessage card now)]
        (by rw [hphase]; trivial) (by simp)
    · obtain ⟨rfl, rfl, rfl⟩ := by simpa using h
      exact .move _ _ _ _ (same_at' _ _) (by rw [hphase]; trivial) trivial rfl (.refl _ _)
        (by simp)
  · rename_i e hphase
    exact failedToStart_cases hphase h
  · rename_i hphase
    obtain ⟨rfl, rfl, rfl⟩ := by simpa using h
    refine .move _ _ _ _ (same_at' _ _) (by rw [hphase]; trivial) trivial rfl (.refl _ _) ?_
    cases s.connectedBefore <;> simp [lookingStatus]
  · -- resolving
    rename_i hphase
    split_ifs at h with hc
    obtain ⟨rfl, rfl, rfl⟩ := by simpa using h
    exact .returns _ _ (by rw [hphase]; trivial) (by simp)
  · rename_i id hphase
    split_ifs at h with hid
    · obtain ⟨rfl, rfl, rfl⟩ := by simpa using h
      exact .givesUp _ _ _ _ (same_at' _ _) (by rw [hphase]; trivial) ⟨_, hkind⟩ rfl rfl
        (.refl _ _)
    · obtain ⟨rfl, rfl, rfl⟩ := by simpa using h
      exact .move _ _ _ _ (same_at' _ _) (by rw [hphase]; trivial) trivial rfl (.refl _ _)
        (by simp)
  · rename_i e hphase
    obtain ⟨rfl, rfl, rfl⟩ := by simpa using h
    exact attemptFailed_cases hkind (by rw [hphase]; trivial) rfl
  · -- connecting
    rename_i hphase
    exact cancelled_cases (by rw [hphase]; trivial) h
  · rename_i conn hphase
    obtain ⟨rfl, rfl, rfl⟩ := by simpa using h
    refine .begin_ _ conn none _ _ (same_at' _ _) (by rw [hphase]; trivial) ?_ rfl (by simp)
    rw [hkind]
    rfl
  · rename_i e hphase
    obtain ⟨rfl, rfl, rfl⟩ := by simpa using h
    exact attemptFailed_cases hkind (by rw [hphase]; trivial) rfl
  · -- authenticating
    rename_i conn auth l code hphase
    obtain ⟨auth', hstep, ⟨-, rfl, rfl⟩ | ⟨key, hprog, hok⟩ | ⟨e, hprog, herr⟩⟩ := authStep_cases h
    · exact .goOn l code conn auth auth' _ _ (same_at' _ _) hphase hstep rfl rfl
    · obtain ⟨rfl, rfl⟩ := Prod.mk.inj hok
      exact .paired l code conn auth auth' key _ _ _ ⟨rfl, rfl, rfl⟩ hphase hstep hprog hpeer
        (fun _ _ => rfl) rfl rfl (by simp)
    · obtain ⟨rfl, rfl⟩ := Prod.mk.inj herr
      exact .givesUp _ _ _ _ (same_at' _ _) (by rw [hphase]; trivial) ⟨_, hkind⟩ rfl rfl
        (.of_step hphase hstep)
  · rename_i conn auth hphase
    obtain ⟨rfl, rfl, rfl⟩ := by simpa using h
    exact .givesUp _ _ _ _ (same_at' _ _) (by rw [hphase]; trivial) ⟨_, hkind⟩ rfl rfl (.refl _ _)
  · -- pumping
    rename_i conn hist p l hphase
    obtain ⟨rfl, ⟨p', clip', out, hstep, rfl, rfl⟩ | ⟨r, clip', out, hstep, hover⟩⟩ :=
      pumpStep_cases h
    · exact .pumps l conn hist p p' clip' out _ ⟨rfl, rfl, rfl⟩ hphase hstep hpeer rfl rfl rfl
    · split_ifs at hover with hc
      · obtain ⟨rfl, rfl⟩ := Prod.mk.inj hover
        exact .stops _ conn hist p _ (same_at' _ _) hphase hc rfl rfl
      · obtain ⟨rfl, rfl⟩ := Prod.mk.inj hover
        exact dropped_cases hkind hphase hstep rfl
  · rename_i conn hist p hphase
    obtain ⟨hc, rfl, rfl, rfl⟩ := cancel?_cases h
    exact .stops _ conn hist p _ (same_at' _ _) hphase hc rfl rfl
  · -- sleeping
    rename_i hphase
    exact cancelled_cases (by rw [hphase]; trivial) h
  · rename_i hphase
    obtain ⟨rfl, rfl, rfl⟩ := by simpa using h
    refine .move _ _ _ _ (same_at' _ _) (by rw [hphase]; trivial) trivial rfl (.refl _ _) ?_
    cases s.connectedBefore <;> simp [lookingStatus]
  · rename_i hphase
    obtain ⟨rfl, rfl, rfl⟩ := by simpa using h
    exact .returns _ _ (by rw [hphase]; trivial) (by simp)
  · cases h

/-- What follows a failed attempt of a joiner at a host.

**Proof sketch.** By whether the claim is held by this connection's node: the task closes, or it
goes on waiting. -/
lemma hostFailed_cases {l : SessionLabel} {conn : Conn} {e : Error} (pre : List Out)
    (hpre : ∀ o ∈ pre, o.Quiet) (hfrom : s.phase.Going) (hlent : s.Answered memory memory')
    (h : hostFailed s memory' conn e = (s', outs)) :
    Stepped C ownId s memory l s' memory' (pre ++ outs) := by
  unfold hostFailed at h
  split_ifs at h
  · obtain ⟨rfl, rfl⟩ := Prod.mk.inj h
    refine .closes _ _ _ _ (same_at' _ _) hfrom.noPump rfl rfl hlent
      (List.forall_mem_append.2 ⟨hpre, ?_⟩)
    simp
  · obtain ⟨rfl, rfl⟩ := Prod.mk.inj h
    refine .move _ _ _ _ (same_at' _ _) hfrom trivial rfl hlent
      (List.forall_mem_append.2 ⟨hpre, ?_⟩)
    simp

/-- The publisher of a card setup surfaces nothing but PINs and errors. -/
lemma quiet_pins {channel : SignalChannel} {p p' : PinPublisher} {sh sh' : PinShared}
    {l : PinLabel} {es : List NetEvent} (h : p.step C channel sh l = some (p', sh', es)) :
    ∀ o ∈ es.map Out.event, o.Quiet := by
  intro o ho
  obtain ⟨e, he, rfl⟩ := List.mem_map.1 ho
  rcases PinPublisher.step_events h e he with ⟨pin, secs, ip, rfl⟩ | rfl | ⟨message, rfl⟩ <;>
    trivial

/-- The host of a card setup takes one of the listed steps.

**Proof sketch.** One constructor of the relation for each branch of the step function. -/
lemma hostStep_cases {card : IdentityCard} {channel : SignalChannel} {relays : List String}
    {l : SessionLabel} (hkind : s.kind = .server (.cardSetup card channel relays))
    (h : hostStep C ownId channel s memory l = some (s', memory', outs)) :
    Stepped C ownId s memory l s' memory' outs := by
  unfold hostStep at h
  split at h
  · -- spawned
    rename_i hphase
    obtain ⟨rfl, rfl, rfl⟩ := by simpa using h
    exact .move _ _ _ _ (same_at' _ _) (by rw [hphase]; trivial) trivial rfl (.refl _ _) (by simp)
  · rename_i e hphase
    exact failedToStart_cases hphase h
  · rename_i hphase
    obtain ⟨rfl, rfl, rfl⟩ := by simpa using h
    exact .move _ _ _ _ ⟨rfl, rfl, rfl⟩ (by rw [hphase]; trivial) trivial rfl (.refl _ _)
      (by simp)
  · -- accepting
    rename_i conn hphase
    split_ifs at h with hserve
    · obtain ⟨rfl, rfl, rfl⟩ := by simpa using h
      refine .begin_ _ conn memory.claim.peer _ _ (same_at' _ _) (by rw [hphase]; trivial) ?_ rfl
        (by simp)
      rw [hkind]
      rfl
    · obtain ⟨rfl, rfl, rfl⟩ := by simpa using h
      exact .stay _ _ _ _ (Same.refl _) rfl rfl rfl rfl (Lent.refl _) (by simp)
  · rename_i hphase
    exact cancelled_cases (by rw [hphase]; trivial) h
  · -- authenticating
    rename_i conn auth l code hphase
    obtain ⟨auth', hstep, ⟨-, rfl, rfl⟩ | ⟨key, hprog, hok⟩ | ⟨e, hprog, herr⟩⟩ := authStep_cases h
    · exact .goOn l code conn auth auth' _ _ (same_at' _ _) hphase hstep rfl rfl
    · obtain ⟨rfl, rfl⟩ := Prod.mk.inj hok
      exact .trades l code conn auth auth' key _ _ _ (same_at' _ _) hphase hstep hprog rfl rfl
        (by simp)
    · obtain ⟨rfl, rfl⟩ := Prod.mk.inj herr
      exact hostFailed_cases [.close conn (authCloseCode e)] (by simp)
        (by rw [hphase]; trivial) (.of_step hphase hstep) rfl
  · rename_i conn auth hphase
    obtain ⟨rfl, rfl, rfl⟩ := by simpa using h
    exact hostFailed_cases [.close conn AUTH_TIMEOUT_CODE] (by simp)
      (by rw [hphase]; trivial) (.refl _ _) rfl
  · -- exchanging
    rename_i conn card hphase
    obtain ⟨rfl, rfl, rfl⟩ := by simpa using h
    exact .receives conn card _ _ (same_at' _ _) hphase trivial rfl (Or.inl rfl)
  · rename_i conn e hphase
    obtain ⟨rfl, rfl, rfl⟩ := by simpa using h
    exact hostFailed_cases [] (by simp) (by rw [hphase]; trivial) (.refl _ _) rfl
  · rename_i conn hphase
    obtain ⟨rfl, rfl, rfl⟩ := by simpa using h
    exact hostFailed_cases [] (by simp) (by rw [hphase]; trivial) (.refl _ _) rfl
  · -- refusing
    obtain ⟨rfl, rfl, rfl⟩ := by simpa using h
    exact .stay _ _ _ _ (Same.refl _) rfl rfl rfl rfl (Lent.refl _) (by simp)
  · rename_i hphase
    obtain ⟨rfl, rfl, rfl⟩ := by simpa using h
    exact .closes _ _ _ _ (same_at' _ _) (by rw [hphase]; trivial) rfl rfl (.refl _ _)
      (by simp)
  · rename_i hphase
    obtain ⟨rfl, rfl, rfl⟩ := by simpa using h
    exact .returnsIdle _ [] (by rw [hphase]; trivial) (by simp)
  · -- the publisher
    split at h
    · obtain ⟨⟨p', sh, es⟩, hstep, hres⟩ := Option.map_eq_some_iff.1 h
      obtain ⟨rfl, rfl, rfl⟩ := by simpa using hres
      exact .stay _ _ _ _ ⟨rfl, rfl, rfl⟩ rfl rfl rfl rfl ⟨rfl, Or.inl rfl⟩
        (quiet_pins hstep)
    · cases h
  · cases h

/-- A joiner makes one attempt: when that failed, it says why and closes. -/
lemma joinerFailed_cases {l : SessionLabel} {message : String} (hfrom : s.phase.NoPump)
    (h : some (joinerFailed s memory message) = some (s', memory', outs)) :
    Stepped C ownId s memory l s' memory' outs := by
  obtain ⟨rfl, rfl, rfl⟩ := by simpa [joinerFailed] using h
  exact .closes _ _ _ _ (same_at' _ _) hfrom rfl rfl (.refl _ _) (by simp)

/-- The joiner of a card setup takes one of the listed steps.

**Proof sketch.** One constructor of the relation for each branch of the step function. -/
lemma joinerStep_cases {pin : String} {card : IdentityCard} {ip : Option IpAddr}
    {channel : SignalChannel} {relays : List String} {l : SessionLabel}
    (hkind : s.kind = .client (.cardSetup pin card ip channel relays))
    (h : joinerStep C ownId pin s memory l = some (s', memory', outs)) :
    Stepped C ownId s memory l s' memory' outs := by
  unfold joinerStep at h
  split at h
  · -- spawned
    rename_i hphase
    obtain ⟨rfl, rfl, rfl⟩ := by simpa using h
    exact .move _ _ _ _ (same_at' _ _) (by rw [hphase]; trivial) trivial rfl (.refl _ _) (by simp)
  · rename_i e hphase
    exact failedToStart_cases hphase h
  · rename_i hphase
    obtain ⟨rfl, rfl, rfl⟩ := by simpa using h
    exact .move _ _ _ _ (same_at' _ _) (by rw [hphase]; trivial) trivial rfl (.refl _ _) (by simp)
  · -- resolving
    rename_i hphase
    exact cancelled_cases (by rw [hphase]; trivial) h
  · rename_i id hphase
    split_ifs at h with hid
    · exact joinerFailed_cases (by rw [hphase]; trivial) h
    · obtain ⟨rfl, rfl, rfl⟩ := by simpa using h
      exact .move _ _ _ _ (same_at' _ _) (by rw [hphase]; trivial) trivial rfl (.refl _ _)
        (by simp)
  · rename_i e hphase
    exact joinerFailed_cases (by rw [hphase]; trivial) h
  · -- connecting
    rename_i hphase
    exact cancelled_cases (by rw [hphase]; trivial) h
  · rename_i conn hphase
    obtain ⟨rfl, rfl, rfl⟩ := by simpa using h
    refine .begin_ _ conn none _ _ (same_at' _ _) (by rw [hphase]; trivial) ?_ rfl (by simp)
    rw [hkind]
    rfl
  · rename_i e hphase
    exact joinerFailed_cases (by rw [hphase]; trivial) h
  · -- authenticating
    rename_i conn auth l code hphase
    obtain ⟨auth', hstep, ⟨-, rfl, rfl⟩ | ⟨key, hprog, hok⟩ | ⟨e, hprog, herr⟩⟩ := authStep_cases h
    · exact .goOn l code conn auth auth' _ _ (same_at' _ _) hphase hstep rfl rfl
    · obtain ⟨rfl, rfl⟩ := Prod.mk.inj hok
      exact .trades l code conn auth auth' key _ _ _ (same_at' _ _) hphase hstep hprog rfl rfl
        (by simp)
    · obtain ⟨rfl, rfl⟩ := Prod.mk.inj herr
      exact .closes _ _ _ _ (same_at' _ _) (by rw [hphase]; trivial) rfl rfl (.of_step hphase hstep)
        (by simp)
  · rename_i conn auth hphase
    exact joinerFailed_cases (by rw [hphase]; trivial) h
  · -- exchanging
    rename_i conn card hphase
    obtain ⟨rfl, rfl, rfl⟩ := by simpa using h
    exact .receives conn card _ _ (same_at' _ _) hphase trivial rfl (Or.inr rfl)
  · rename_i conn e hphase
    exact joinerFailed_cases (by rw [hphase]; trivial) h
  · rename_i conn hphase
    exact joinerFailed_cases (by rw [hphase]; trivial) h
  · rename_i hphase
    obtain ⟨rfl, rfl, rfl⟩ := by simpa using h
    exact .returnsIdle _ [] (by rw [hphase]; trivial) (by simp)
  · cases h

/-- **Every step of a session task is one of the list.**

**Proof sketch.** By the kind of the session. -/
theorem step_cases {l : SessionLabel} (h : s.step C ownId memory l = some (s', memory', outs)) :
    Stepped C ownId s memory l s' memory' outs := by
  unfold Session.step at h
  split at h
  · rename_i hkind
    exact serverStep_cases hkind h
  · rename_i hkind
    exact hostStep_cases hkind h
  · rename_i hkind
    exact clientStep_cases hkind h
  · rename_i hkind
    exact joinerStep_cases hkind h

/-- A step makes at most one call on the claim of the memory that the task was lent. -/
lemma step_lent {l : SessionLabel} (h : s.step C ownId memory l = some (s', memory', outs)) :
    Lent memory memory' := by
  cases step_cases h with
  | goOn _ _ _ _ _ _ _ _ _ step => exact Auth.step_lent step
  | paired _ _ _ _ _ _ _ _ _ _ _ step => exact Auth.step_lent step
  | trades _ _ _ _ _ _ _ _ _ _ _ step => exact Auth.step_lent step
  | stay => assumption
  | move => exact Answered.lent ‹_›
  | closes => exact Answered.lent ‹_›
  | givesUp => exact Answered.lent ‹_›
  | _ => exact Lent.refl _

/-- A step leaves the task's number, what it was started with and its cancel token. -/
lemma step_same {l : SessionLabel} (h : s.step C ownId memory l = some (s', memory', outs)) :
    Same s s' := by
  cases step_cases h with
  | returns | returnsIdle => exact ⟨rfl, rfl, rfl⟩
  | _ => assumption

end Session

end Duocb
