import Duocb.Net.Session.Steps

set_option relaxedAutoImplicit false
set_option autoImplicit false

/-!
# What holds of a session task

A handshake asks its host for something only when it has earned it, so a claim is held by whom its
session key allows, and a task that pumps a connection or trades cards over it has proved its other
end.

## Main definitions

* `Duocb.Auth.ListenerDue`, `Duocb.Auth.DialerDue` — what a handshake owes before it asks.
* `Duocb.SessionKey.Holds` — whom a claim under a session key may belong to.
* `Duocb.Session.Inv` — what holds of a task and the memory it was lent.

## Main results

* `Duocb.Auth.authAsListener_safe` — a listener asks for the claim only for a key that was admitted
  or a PIN that was verified.
* `Duocb.Session.Inv.step` — every step of a task keeps the invariant.
-/

namespace Duocb

variable {C : Crypto}

/-! ## What a handshake asks of its host -/

namespace Auth

/-- What a listener owes before each operation on a connection: it takes one snapshot of the PINs;
it asks for the claim of a key only after the key was admitted, and for that of a PIN only after a
slot verified that runs one of the passwords it was given; it accepts a PIN only after its claim was
granted. -/
def ListenerDue (C : Crypto) (keyAuth : Option KeyListener) (remoteId ownId : EndpointId)
    (h : List HandshakeEvt) : Op → Prop
  | .candidates => ∀ e ∈ h, e.1 ≠ .candidates
  | .commitKey key => keyAuth.isSome ∧ ⟨.admitKey key, .ok ()⟩ ∈ h
  | .commitPin => ∃ passwords : List PinPassword, ⟨.candidates, passwords⟩ ∈ h ∧
      ∃ slot, PinAuth.Verified C passwords remoteId.toString ownId.toString h slot
  | .write frame => ∀ slot mac, frame = (PinConfirm.accept slot mac).toFrame →
      ⟨.commitPin, true⟩ ∈ h
  | _ => True

/-- What a dialer owes before each operation: it has no host to ask. -/
def DialerDue : Op → Prop
  | .admitKey _ | .commitKey _ | .candidates | .commitPin => False
  | _ => True

/-- An operation of a PIN handshake that has its PINs: it concerns no application key. -/
def Keyless : Op → Prop
  | .admitKey _ | .commitKey _ | .signAuth _ | .candidates => False
  | _ => True

section Uses

variable {P : Op → Prop} {α β : Type}

/-- A fallible value uses nothing, so the rest decides. -/
lemma uses_ofExcept_bind {x : Except Error β} {f : β → Handshake α}
    (hf : ∀ b, Prog.Uses P (f b)) : Prog.Uses P (Prog.ofExcept x >>= f) :=
  (Prog.Uses.ofExcept x).bind hf

/-- A write uses itself. -/
lemma uses_writeFrame {frame : Frame} (hP : P (.write frame)) : Prog.Uses P (writeFrame frame) :=
  .call hP fun r => Prog.Uses.ofExcept (r : Except Error Unit)

/-- A write uses itself, and the rest what it uses. -/
lemma uses_writeFrame_bind {frame : Frame} {f : Unit → Handshake α} (hP : P (.write frame))
    (hf : Prog.Uses P (f ())) : Prog.Uses P (writeFrame frame >>= f) :=
  (uses_writeFrame hP).bind fun _ => hf

/-- A read uses itself, and the rest what it uses for every frame. -/
lemma uses_readLengthPrefixed_bind {max : ℕ} {f : Frame → Handshake α} (hP : P (.read max))
    (hf : ∀ frame, Prog.Uses P (f frame)) : Prog.Uses P (readLengthPrefixed max >>= f) :=
  Prog.Uses.bind (.call hP fun r => Prog.Uses.ofExcept (r : Except Error Frame)) hf

/-- Opening the stream uses itself, and the rest what it uses. -/
lemma uses_sessionStream_bind {f : Unit → Handshake α} (hP : P .sessionStream)
    (hf : Prog.Uses P (f ())) : Prog.Uses P (sessionStream >>= f) :=
  Prog.Uses.bind (.call hP fun r => Prog.Uses.ofExcept (r : Except Error Unit)) fun _ => hf

/-- A check uses nothing, so the rest decides. -/
lemma uses_ensure_bind {c : Bool} {e : Error} {f : Unit → Handshake α}
    (hf : Prog.Uses P (f ())) : Prog.Uses P (ensure c e >>= f) := by
  unfold ensure
  split
  · exact hf
  · exact Prog.Uses.fail e

end Uses

/-- A PIN handshake that is turned away touches no key, -/
lemma reject_uses (reason error : String) : Prog.Uses Keyless (PinAuth.reject reason error) := by
  unfold PinAuth.reject
  refine uses_ofExcept_bind fun frame => ?_
  refine uses_writeFrame_bind (by trivial) ?_
  exact Prog.Uses.fail _

/-- and neither does a slot of the listener. -/
lemma listenerSlot_uses (passwords : List PinPassword) (pakes : List String) (d l : String)
    (i : ℕ) : Prog.Uses Keyless (PinAuth.listenerSlot C passwords pakes d l i) := by
  have hpassword : Prog.Uses Keyless (PinAuth.slotPassword passwords i) := by
    unfold PinAuth.slotPassword
    split
    · exact Prog.Uses.ret _
    · exact Prog.Uses.call trivial fun _ => Prog.Uses.ret _
  unfold PinAuth.listenerSlot
  refine hpassword.bind fun p => ?_
  refine Prog.Uses.bind (p := randomScalar) (.call trivial fun _ => .ret _) fun y => ?_
  refine uses_ofExcept_bind fun msgA => ?_
  refine uses_ofExcept_bind fun key => ?_
  exact Prog.Uses.ret _

/-- The listening half of a PIN handshake concerns no key.

**Proof sketch.** The program is gone through operation by operation; none of them is about a key.
-/
lemma pinListener_uses (passwords : List PinPassword) (pakes : List String) (d l : String) :
    Prog.Uses Keyless (PinAuth.listenerHandshake C passwords pakes d l) := by
  unfold PinAuth.listenerHandshake
  refine uses_ensure_bind ?_
  refine (Prog.Uses.each (fun i => listenerSlot_uses passwords pakes d l i) _).bind fun slots => ?_
  refine uses_ofExcept_bind fun challenge => ?_
  refine uses_writeFrame_bind (by trivial) ?_
  unfold PinAuth.listenerVerify
  refine uses_readLengthPrefixed_bind (by trivial) fun responseBytes => ?_
  refine uses_ofExcept_bind fun response => ?_
  refine uses_ensure_bind ?_
  unfold PinAuth.verdict
  split
  · refine Prog.Uses.bind (p := commitPin) (.call trivial fun _ => .ret _) fun committed => ?_
    split
    · unfold PinAuth.accept
      refine uses_ofExcept_bind fun frame => ?_
      exact uses_writeFrame (by trivial)
    · exact reject_uses _ _
  · exact reject_uses _ _

/-- The dialing half of a PIN handshake has no host to ask.

**Proof sketch.** The program is gone through operation by operation; none of them is for a host. -/
lemma pinDialer_uses (pin d l : String) :
    Prog.Uses DialerDue (PinAuth.dialerHandshake C pin d l) := by
  unfold PinAuth.dialerHandshake
  refine uses_ofExcept_bind fun password => ?_
  have start : ∀ _ : ℕ, Prog.Uses DialerDue (PinAuth.startSlotA C password) :=
    fun _ => Prog.Uses.call trivial fun _ => Prog.Uses.ret _
  refine (Prog.Uses.each start _).bind fun states => ?_
  refine uses_ofExcept_bind fun request => ?_
  refine uses_writeFrame_bind (by trivial) ?_
  unfold PinAuth.dialerConfirm
  refine uses_readLengthPrefixed_bind (by trivial) fun challengeBytes => ?_
  refine uses_ofExcept_bind fun challenge => ?_
  refine uses_ensure_bind ?_
  refine uses_ofExcept_bind fun finished => ?_
  refine uses_ofExcept_bind fun response => ?_
  refine uses_writeFrame_bind (by trivial) ?_
  unfold PinAuth.dialerVerify
  refine uses_readLengthPrefixed_bind (by trivial) fun confirmBytes => ?_
  refine uses_ofExcept_bind fun confirm => ?_
  exact Prog.Uses.ofExcept _

/-- The dialing half of a key handshake has no host to ask.

**Proof sketch.** The program is gone through operation by operation; none of them is for a host. -/
lemma keyDialer_uses (identity : Identity) (peer : PublicKey) (d l : String) :
    Prog.Uses DialerDue (KeyAuth.dialerHandshake C identity peer d l) := by
  unfold KeyAuth.dialerHandshake
  refine Prog.Uses.bind (p := randomNonce) (.call trivial fun _ => .ret _) fun nonce => ?_
  refine uses_ofExcept_bind fun request => ?_
  refine uses_writeFrame_bind (by trivial) ?_
  refine uses_readLengthPrefixed_bind (by trivial) fun challengeBytes => ?_
  refine uses_ofExcept_bind fun challenge => ?_
  refine uses_ofExcept_bind fun serverKey => ?_
  refine uses_ensure_bind ?_
  refine uses_ofExcept_bind fun _ => ?_
  refine Prog.Uses.bind (p := signAuth _) (.call trivial fun _ => .ret _) fun proof => ?_
  refine uses_ofExcept_bind fun frame => ?_
  refine uses_writeFrame_bind (by trivial) ?_
  refine uses_readLengthPrefixed_bind (by trivial) fun responseBytes => ?_
  refine uses_ofExcept_bind fun response => ?_
  unfold ensure
  split
  · exact Prog.Uses.ret _
  · exact Prog.Uses.fail _

/-- Every answer there may be. -/
abbrev Any : (o : Op) → Ans o → Prop := fun _ _ => True

/-- No demand on how a program ends. -/
abbrev Ends {α : Type} : List HandshakeEvt → Except Error α → Prop := fun _ _ => True

/-- Opening the stream is safe, and leaves one event. -/
lemma sessionStream_safe {I : List HandshakeEvt → Op → Prop} (hI : I [] .sessionStream) :
    Prog.Safe Any I (fun h r => r = .ok () → h = [⟨.sessionStream, .ok ()⟩]) [] sessionStream := by
  refine ⟨hI, fun r _ => ?_⟩
  rcases r with e | u
  · exact fun hr => by cases hr
  · exact fun _ => rfl

/-- Reading the request is safe, and leaves one event with a frame that decodes to it.

**Proof sketch.** The program reads one frame and decodes it, and only a frame that decodes gives a
request. -/
lemma readAuthRequest_safe {I : List HandshakeEvt → Op → Prop} {h : List HandshakeEvt}
    (hI : I h (.read MAX_CONTROL_MESSAGE_SIZE)) :
    Prog.Safe Any I (fun h' r => ∀ request, r = .ok request → ∃ frame,
      h' = h ++ [⟨.read MAX_CONTROL_MESSAGE_SIZE, .ok frame⟩] ∧
        decodeAuthRequest frame = .ok request) h readAuthRequest := by
  refine ⟨hI, fun r _ => ?_⟩
  rcases r with e | frame
  · exact fun request hr => by cases hr
  · show Prog.Safe Any I _ _ (Prog.ofExcept ((withContext (.ok frame : Except Error Frame)
      "Failed to read auth request") >>= fun requestBytes =>
        withContext (decodeAuthRequest requestBytes) "Invalid auth request"))
    rw [withContext_ok]
    show Prog.Safe Any I _ _
      (Prog.ofExcept (withContext (decodeAuthRequest frame) "Invalid auth request"))
    cases hd : decodeAuthRequest frame with
    | error e => exact fun request hr => by cases hr
    | ok request' =>
      intro request hr
      cases hr
      exact ⟨frame, rfl, hd⟩

/-- **What a listener's handshake asks of its host**, whatever it is answered.

**Proof sketch.** Up to the opening request nothing is asked. Then each method brings its own
account of what it owes, which is read after the two events that came before it. -/
theorem authAsListener_safe (keyAuth : Option KeyListener) (remoteId ownId : EndpointId) :
    Prog.Safe Any (ListenerDue C keyAuth remoteId ownId) Ends []
      (authAsListener C keyAuth remoteId ownId) := by
  unfold authAsListener
  refine (sessionStream_safe trivial).bind ?_ fun _ _ _ => trivial
  rintro h ⟨⟩ hstream
  obtain rfl := hstream rfl
  refine (readAuthRequest_safe trivial).bind ?_ fun _ _ _ => trivial
  intro h request hread
  obtain ⟨frame, rfl, hdec⟩ := hread request rfl
  cases request with
  | key version publicKey nonce =>
    show Prog.Safe _ _ _ _ (Prog.ofExcept _ >>= _)
    rw [Prog.safe_ofExcept_bind]
    refine ⟨fun listener hl => ?_, fun _ _ => trivial⟩
    have hsome : keyAuth.isSome := by
      cases keyAuth with
      | none => cases hl
      | some _ => rfl
    have hsafe := KeyAuth.listener_safe C listener.identity.identity publicKey nonce
      remoteId.toString ownId.toString
    refine (hsafe.shift (E := Ends) [⟨.sessionStream, .ok ()⟩,
      ⟨.read MAX_CONTROL_MESSAGE_SIZE, .ok frame⟩] (fun h o ho => ?_) fun _ _ _ => trivial).bind
      (fun _ _ _ => trivial) fun _ _ _ => trivial
    cases o with
    | candidates => exact ho.elim
    | commitKey key =>
      obtain ⟨-, nonce, proof, hv⟩ := ho
      exact ⟨hsome, List.mem_append_right _ hv.admitted⟩
    | commitPin => exact ho.elim
    | write f =>
      rintro slot mac rfl
      obtain ⟨m, s, n, -, he⟩ | ⟨key, -, he⟩ := ho
      · simp [KeyChallenge.new, KeyChallenge.toFrame, PinConfirm.accept, PinConfirm.toFrame] at he
      · simp [AuthResponse.accept, AuthResponse.toFrame, PinConfirm.accept, PinConfirm.toFrame,
          optField] at he
    | _ => trivial
  | pin version pakes =>
    show Prog.Safe _ _ _ _ (candidates >>= _)
    refine ⟨by simp [ListenerDue], fun (passwords : List PinPassword) _ => ?_⟩
    have hopen : PinAuth.Opened frame ([⟨.sessionStream, .ok ()⟩] ++
        [⟨.read MAX_CONTROL_MESSAGE_SIZE, .ok frame⟩] ++ [⟨.candidates, passwords⟩]) := by
      constructor <;> simp
    have hsafe := (PinAuth.listenerHandshake_safe (C := C) passwords remoteId.toString
      ownId.toString hopen hdec).and_uses (pinListener_uses _ _ _ _)
    refine (hsafe.shift (E := Ends) [] (fun h o ho => ?_) fun _ _ _ => trivial).bind
      (fun _ _ _ => trivial) fun _ _ _ => trivial
    obtain ⟨hdue, huse⟩ := ho
    cases o with
    | candidates => exact huse.elim
    | commitKey key => exact huse.elim
    | commitPin => exact ⟨passwords, by simp, hdue.2⟩
    | write f => exact fun slot mac he => (hdue slot mac he).1
    | _ => trivial

end Auth

/-- What a session of this kind owes before each operation of its handshake. -/
def HandshakeDue (C : Crypto) (ownId : EndpointId) (kind : SessionKind) (remoteId : EndpointId)
    (h : List HandshakeEvt) (o : Op) : Prop :=
  match kind with
  | .server _ => Auth.ListenerDue C (keyAuthOf kind) remoteId ownId h o
  | .client _ => Auth.DialerDue o

/-- **Every authentication program is safe**: it does what is due for its kind of session at each
call, and ends as it should. -/
lemma program_safe (ownId : EndpointId) (kind : SessionKind) (remoteId : EndpointId) :
    Prog.Safe Auth.Any (HandshakeDue C ownId kind remoteId) Auth.Ends []
      (program C ownId kind remoteId) := by
  rcases kind with mode | (_ | _)
  · exact Auth.authAsListener_safe _ _ _
  · refine Prog.Uses.safe (P := Auth.DialerDue) ?_ []
    exact Auth.uses_sessionStream_bind (by trivial)
      ((Auth.keyDialer_uses _ _ _ _).bind fun _ => .ret _)
  · refine Prog.Uses.safe (P := Auth.DialerDue) ?_ []
    exact Auth.uses_sessionStream_bind (by trivial)
      ((Auth.pinDialer_uses _ _ _).bind fun _ => .ret _)

/-! ## Whom a claim belongs to -/

/-- Whom a claim under a session key may belong to: a hosting clipboard session serves its own peer
only, a card setup knows no key, and a dialer has no claim. -/
def SessionKey.Holds : SessionKey → PairClaim → Prop
  | .serverKey _ peer _, claim => ∀ c, claim.peer = some c → c.applicationKey = some peer
  | .serverCardSetup _, claim => ∀ c, claim.peer = some c → c.applicationKey = none
  | _, claim => claim.peer = none

/-- A fresh claim belongs to nobody. -/
lemma SessionKey.holds_empty (key : SessionKey) : key.Holds .empty := by
  cases key with
  | serverKey => intro c hc; cases hc
  | serverCardSetup => intro c hc; cases hc
  | clientCardSetup => rfl
  | clientKey => rfl

/-- An authentication belongs to a session of this kind and a connection. Its policy is the one that
the session gives it, and its history follows the program of that kind. -/
structure Auth.Of (C : Crypto) (ownId : EndpointId) (kind : SessionKind) (conn : Conn)
    (claim : PairClaim) (auth : Auth) : Prop where
  keyAuth : auth.policy.keyAuth = keyAuthOf kind
  pinCache : auth.policy.pinCache = pinCacheOf kind
  remoteId : auth.policy.remoteId = conn.remoteId
  inv : Auth.Inv (program C ownId kind conn.remoteId) auth.policy claim auth.hist auth.prog

namespace Auth.Of

variable {ownId : EndpointId} {kind : SessionKind} {conn : Conn} {claim : PairClaim}
    {auth auth' : Auth}
  {memory memory' : SessionMemory} {l : AuthLabel}

/-- An authentication that has just begun is one of its session. -/
lemma fresh (C : Crypto) (ownId : EndpointId) (kind : SessionKind) (existing : Option ClaimedPeer)
    (conn : Conn) (claim : PairClaim) :
    (Session.freshAuth C ownId kind existing conn).Of C ownId kind conn claim :=
  ⟨rfl, rfl, rfl, .start _ _ _⟩

/-- The operation that comes next has been earned. -/
lemma due (h : auth.Of C ownId kind conn claim) {o : Op} {k : Ans o → Handshake (Option PublicKey)}
    (hprog : auth.prog = .call o k) : HandshakeDue C ownId kind conn.remoteId auth.hist o := by
  have hsafe := (program_safe (C := C) ownId kind conn.remoteId).sound h.inv.follows
    fun _ _ => trivial
  rw [hprog] at hsafe
  exact hsafe.2.1

/-- A key that was admitted is the one the session is for. -/
lemma admitted (h : auth.Of C ownId kind conn claim) {key : PublicKey}
    (hadm : ⟨.admitKey key, .ok ()⟩ ∈ auth.hist) :
    ∃ identity channel, kind = .server (.key identity key channel) := by
  obtain ⟨now, hok⟩ := h.inv.admitted key hadm
  obtain ⟨listener, card, hl, -, rfl, -⟩ := Policy.admit_ok hok
  rw [h.keyAuth] at hl
  rcases kind with (⟨identity, peer, channel⟩ | _) | _
  · obtain rfl := Option.some.inj hl
    exact ⟨identity, channel, rfl⟩
  · cases hl
  · cases hl

/-- A slot verifies only in a session that shows PINs.

**Proof sketch.** The password of the slot is one of the snapshot, and a session without PINs has an
empty one. -/
lemma verified (h : auth.Of C ownId kind conn claim) {passwords : List PinPassword} {slot : ℕ}
    (hcand : ⟨.candidates, passwords⟩ ∈ auth.hist)
    (hv : PinAuth.Verified C passwords conn.remoteId.toString ownId.toString auth.hist slot) :
    ∃ card channel relays, kind = .server (.cardSetup card channel relays) := by
  obtain ⟨pins, rfl⟩ := h.inv.snapshot passwords hcand
  obtain ⟨-, pw, -, -, -, -, -, -, -, -, -, hget, -⟩ := hv
  rcases kind with (_ | ⟨card, channel, relays⟩) | _
  · have hnone : auth.policy.snapshot pins = [] := by
      simp [Policy.snapshot, h.pinCache, pinCacheOf]
    simp [hnone] at hget
  · exact ⟨card, channel, relays, rfl⟩
  · have hnone : auth.policy.snapshot pins = [] := by
      simp [Policy.snapshot, h.pinCache, pinCacheOf]
    simp [hnone] at hget

/-- **An authentication keeps a claim with whom its session key allows.**

**Proof sketch.** Only the operations on the claim change it. A key call is made with the key of the
session, and a PIN call by a card setup, whose session has no key. -/
lemma step (h : auth.Of C ownId kind conn memory.claim) (hkey : memory.key = sessionKey kind)
    (hholds : memory.key.Holds memory.claim)
    (hstep : auth.step memory l = some (auth', memory')) :
    auth'.Of C ownId kind conn memory'.claim ∧ memory'.key.Holds memory'.claim := by
  obtain ⟨hinv, hpolicy⟩ := h.inv.step hstep
  refine ⟨⟨by rw [hpolicy, h.keyAuth], by rw [hpolicy, h.pinCache], by rw [hpolicy, h.remoteId],
    hinv⟩, ?_⟩
  obtain ⟨o, k, a, hprog, -, ⟨-, rfl⟩ | ⟨now, claim, hans, rfl⟩⟩ := step_cases hstep
  · exact hholds
  have hdue := h.due hprog
  cases o with
  | admitKey key =>
    obtain ⟨-, rfl⟩ := Prod.mk.inj (Option.some.inj hans)
    exact hholds
  | candidates =>
    obtain ⟨-, rfl⟩ := Prod.mk.inj (Option.some.inj hans)
    exact hholds
  | commitKey key =>
    -- only a listener commits a key, and only the one it is for
    rcases kind with mode | _
    · obtain ⟨identity, channel, hk⟩ := h.admitted hdue.2
      rw [hk] at hkey
      have hcommit : memory.claim.commitKey key auth.policy.remoteId = (a, claim) :=
        Option.some.inj hans
      simp only [hkey, sessionKey, SessionKey.Holds] at hholds ⊢
      intro c hc
      cases a with
      | false => exact hholds c (by rw [← PairClaim.commitKey_false hcommit, hc])
      | true =>
        obtain ⟨c', hc', hkey', -⟩ := PairClaim.commitKey_true hcommit
        obtain rfl : c' = c := Option.some.inj (hc'.symm.trans hc)
        exact hkey'
    · exact hdue.elim
  | commitPin =>
    rcases kind with mode | _
    · obtain ⟨passwords, hcand, slot, hv⟩ := hdue
      obtain ⟨card, channel, relays, hk⟩ := h.verified hcand hv
      rw [hk] at hkey
      have hcommit : memory.claim.commitPin auth.policy.remoteId = (a, claim) :=
        Option.some.inj hans
      simp only [hkey, sessionKey, SessionKey.Holds] at hholds ⊢
      intro c hc
      cases hpeer : memory.claim.peer with
      | some c' =>
        rw [commitPin_keeps hcommit hpeer] at hc
        exact hholds c hc
      | none =>
        simp only [PairClaim.commitPin, hpeer] at hcommit
        obtain ⟨-, rfl⟩ := Prod.mk.inj hcommit
        obtain rfl := Option.some.inj hc
        rfl
    · exact hdue.elim
  | _ => cases hans

end Auth.Of

/-! ## The invariant -/

/-- What a task that pumps a connection has proved of its other end. A host has the claim of its
peer beside the proof. No card setup pumps anything. -/
def Proved (C : Crypto) (ownId : EndpointId) (kind : SessionKind) (conn : Conn) (claim : PairClaim)
    (hist : List HandshakeEvt) : Prop :=
  match kind with
  | .server (.key identity peer _) =>
    Auth.ListenerProved C identity.identity conn.remoteId ownId hist peer ∧
      claim.peer = some ⟨some peer, some conn.remoteId⟩
  | .client (.key identity peer _) =>
    Auth.DialerProved C identity.identity conn.remoteId ownId hist peer
  | _ => False

namespace Session

/-- What holds of a task and the memory it was lent. The memory is of its kind, its handshake
belongs to it, a pumped stream has proved the peer, and a card is traded with the holder of the
claim. -/
structure Inv (C : Crypto) (ownId : EndpointId) (s : Session) (memory : SessionMemory) : Prop where
  key : memory.key = sessionKey s.kind
  holds : memory.key.Holds memory.claim
  auth : ∀ conn auth, s.phase = .authenticating conn auth → auth.Of C ownId s.kind conn memory.claim
  pump : ∀ conn hist p, s.phase = .pumping conn hist p →
    Proved C ownId s.kind conn memory.claim hist
  trade : ∀ conn mode, s.phase = .exchanging conn → s.kind = .server mode →
    ∃ c, memory.claim.peer = some c ∧ c.nodeId = some conn.remoteId

variable {ownId : EndpointId} {s s' : Session} {memory memory' : SessionMemory}
  {l : SessionLabel} {outs : List Out}

/-- An authentication that succeeded has proved the other end of its connection.

**Proof sketch.** By the kind of the session. The program has returned, so that what its return
proves applies; a host has the claim of the key beside it. -/
lemma proved_of_done {kind : SessionKind} {conn : Conn} {claim : PairClaim} {auth : Auth}
    {key : Option PublicKey} (h : auth.Of C ownId kind conn claim) (hdone : auth.prog = .ret key)
    (hpeer : kind.peer.isSome) : Proved C ownId kind conn claim auth.hist := by
  have hinv := h.inv
  rw [← h.remoteId, hdone] at hinv
  rcases kind with (⟨identity, peer, channel⟩ | _) | (⟨identity, peer, channel⟩ | _)
  · change Auth.Inv (authAsListener C (keyAuthOf (.server (.key identity peer channel)))
      auth.policy.remoteId ownId) _ _ _ _ at hinv
    cases key with
    | none => exact absurd hinv (Auth.Inv.listener_not_pin h.pinCache)
    | some key =>
      obtain ⟨listener, card, now, hl, -, -, rfl, hproved, c, hc, hkey, hnode⟩ :=
        hinv.listener_key h.keyAuth
      obtain rfl := Option.some.inj hl
      rw [h.remoteId] at hproved hnode
      refine ⟨hproved, ?_⟩
      rw [hc, show c = ⟨some peer, some conn.remoteId⟩ by rw [← hkey, ← hnode]]
  · cases hpeer
  · have hdial := hinv.dialer_key.2
    rwa [h.remoteId] at hdial
  · cases hpeer

/-- A server's authentication that succeeded left the claim with its connection. -/
lemma claimed_of_done {mode : ServerMode} {conn : Conn} {claim : PairClaim} {auth : Auth}
    {key : Option PublicKey} (h : auth.Of C ownId (.server mode) conn claim)
    (hdone : auth.prog = .ret key) :
    ∃ c, claim.peer = some c ∧ c.nodeId = some conn.remoteId := by
  have hinv := h.inv
  rw [← h.remoteId, hdone] at hinv
  cases key with
  | none =>
    obtain ⟨pins, slot, -, c, hc, hnode⟩ := hinv.listener_pin
    exact ⟨c, hc, by rw [hnode, h.remoteId]⟩
  | some key =>
    obtain ⟨listener, card, now, -, -, -, -, -, c, hc, -, hnode⟩ := hinv.listener_key h.keyAuth
    exact ⟨c, hc, by rw [hnode, h.remoteId]⟩

/-- What a step does to the memory keeps the claim with whom its session key allows. -/
lemma Inv.answered (h : s.Inv C ownId memory) (hans : s.Answered memory memory') :
    memory'.key = sessionKey s.kind ∧ memory'.key.Holds memory'.claim := by
  refine ⟨hans.lent.key.trans h.key, ?_⟩
  obtain rfl | ⟨conn, auth, auth', l, hphase, hstep⟩ := hans
  · exact h.holds
  · exact ((h.auth conn auth hphase).step h.key h.holds hstep).2

/-- A task without a connection of its own has only its memory to answer for. -/
lemma Inv.of_no_conn (hkey : memory.key = sessionKey s.kind)
    (hholds : memory.key.Holds memory.claim)
    (hphase : s.phase.Plain ∨ s.phase.Over) : s.Inv C ownId memory where
  key := hkey
  holds := hholds
  auth conn auth h := by rw [h] at hphase; exact (hphase.elim id id).elim
  pump conn hist p h := by rw [h] at hphase; exact (hphase.elim id id).elim
  trade conn mode h := by rw [h] at hphase; exact (hphase.elim id id).elim

/-- A task that waits elsewhere on the same connection, or on the same claim. -/
lemma Inv.of_auth (hkey : memory.key = sessionKey s.kind) (hholds : memory.key.Holds memory.claim)
    {conn : Conn} {auth : Auth} (hphase : s.phase = .authenticating conn auth)
    (hof : auth.Of C ownId s.kind conn memory.claim) : s.Inv C ownId memory where
  key := hkey
  holds := hholds
  auth conn' auth' h := by
    rw [hphase] at h
    cases h
    exact hof
  pump conn hist p h := by rw [hphase] at h; cases h
  trade conn mode h := by rw [hphase] at h; cases h

/-- A session that pumps keeps its invariant, if the stream has proved what its kind asks for. -/
lemma Inv.of_pump (hkey : memory.key = sessionKey s.kind) (hholds : memory.key.Holds memory.claim)
    {conn : Conn} {hist : List HandshakeEvt} {p : Pump} (hphase : s.phase = .pumping conn hist p)
    (hproved : Proved C ownId s.kind conn memory.claim hist) : s.Inv C ownId memory where
  key := hkey
  holds := hholds
  auth conn' auth' h := by rw [hphase] at h; cases h
  pump conn' hist' p' h := by
    rw [hphase] at h
    cases h
    exact hproved
  trade conn mode h := by rw [hphase] at h; cases h

/-- **Every step of a task keeps the invariant.**

**Proof sketch.** By the list of the steps of a task, clause by clause. A step of a handshake is the
lemma about it, and the other steps leave the claim alone. -/
theorem Inv.step (h : s.Inv C ownId memory)
    (hstep : s.step C ownId memory l = some (s', memory', outs)) : s'.Inv C ownId memory' := by
  have hsame := step_same hstep
  cases step_cases hstep with
  | stay _ _ _ _ _ phase clip attempts claim lent =>
    constructor
    · rw [lent.key, hsame.kind, h.key]
    · rw [lent.key, claim]
      exact h.holds
    · intro conn auth hp
      rw [hsame.kind, claim]
      exact h.auth conn auth (phase ▸ hp)
    · intro conn hist p hp
      rw [hsame.kind, claim]
      exact h.pump conn hist p (phase ▸ hp)
    · intro conn mode hp hk
      rw [claim]
      exact h.trade conn mode (phase ▸ hp) (hsame.kind ▸ hk)
  | move _ _ _ _ _ from_ into clip lent =>
    obtain ⟨hkey, hholds⟩ := h.answered lent
    exact .of_no_conn (hsame.kind ▸ hkey) hholds (Or.inl into)
  | begin_ _ conn existing _ _ _ from_ phase =>
    refine .of_auth (hsame.kind ▸ h.key) h.holds phase ?_
    rw [hsame.kind]
    exact Auth.Of.fresh _ _ _ _ _ _
  | goOn l code conn auth auth' _ _ _ from_ step phase =>
    obtain ⟨hof, hholds⟩ := (h.auth conn auth from_).step h.key h.holds step
    exact .of_auth (by rw [(Auth.step_lent step).key, hsame.kind, h.key]) hholds phase
      (hsame.kind ▸ hof)
  | paired l code conn auth auth' key _ _ _ _ from_ step done peer _ phase =>
    obtain ⟨hof, hholds⟩ := (h.auth conn auth from_).step h.key h.holds step
    exact .of_pump (by rw [(Auth.step_lent step).key, hsame.kind, h.key]) hholds phase
      (hsame.kind ▸ proved_of_done hof done peer)
  | trades l code conn auth auth' key _ _ _ _ from_ step done phase =>
    obtain ⟨hof, hholds⟩ := (h.auth conn auth from_).step h.key h.holds step
    constructor
    · rw [(Auth.step_lent step).key, hsame.kind, h.key]
    · exact hholds
    · intro conn' auth'' hp
      rw [phase] at hp
      cases hp
    · intro conn' hist p hp
      rw [phase] at hp
      cases hp
    · intro conn' mode hp hk
      rw [phase] at hp
      cases hp
      rw [hsame.kind] at hk
      rw [hk] at hof
      exact claimed_of_done hof done
  | pumps l conn hist p p' clip' out _ _ from_ step peer phase =>
    exact .of_pump (hsame.kind ▸ h.key) h.holds phase (hsame.kind ▸ h.pump conn hist p from_)
  | unpaired l conn hist p r clip' out _ _ _ from_ step into =>
    exact .of_no_conn (hsame.kind ▸ h.key) h.holds (Or.inl into)
  | exhausted l conn hist p r clip' out _ _ _ from_ _ step _ phase =>
    exact .of_no_conn (hsame.kind ▸ h.key) h.holds (Or.inr (by rw [phase]; trivial))
  | stops l conn hist p _ _ from_ _ phase =>
    exact .of_no_conn (hsame.kind ▸ h.key) h.holds (Or.inr (by rw [phase]; trivial))
  | preempts conn next hist p _ _ from_ _ server serveable phase =>
    refine .of_auth (hsame.kind ▸ h.key) h.holds phase ?_
    rw [hsame.kind]
    exact Auth.Of.fresh _ _ _ _ _ _
  | receives conn card _ _ _ from_ into =>
    exact .of_no_conn (hsame.kind ▸ h.key) h.holds (Or.inr into)
  | closes _ _ _ _ _ from_ phase clip lent =>
    obtain ⟨hkey, hholds⟩ := h.answered lent
    exact .of_no_conn (hsame.kind ▸ hkey) hholds (Or.inr (by rw [phase]; trivial))
  | givesUp _ _ _ _ _ from_ client phase clip lent =>
    obtain ⟨hkey, hholds⟩ := h.answered lent
    exact .of_no_conn (hsame.kind ▸ hkey) hholds (Or.inr (by rw [phase]; trivial))
  | returns => exact .of_no_conn h.key h.holds (Or.inr trivial)
  | returnsIdle => exact .of_no_conn h.key h.holds (Or.inr trivial)

end Session

end Duocb
