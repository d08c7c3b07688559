import Duocb.Net.Session.Expiry

set_option relaxedAutoImplicit false
set_option autoImplicit false

/-!
# A dialer at work

What ends a dialer of a clipboard session, and what it tries again after. An attempt that finds no
record or makes no connection is tried again. A connection that is made is authenticated, and there
the dialer does not tell a failing transport from a refusal: whatever goes wrong, it stops.

## Main definitions

* `Duocb.lost`, `Duocb.Garbled`, `Duocb.Refused` — the three ways a handshake of a dialer fails.
* `Duocb.Session.ClientStepped` — everything a step of a dialer can do.
* `Duocb.TimedSession.Judged` — the dialer stops for a refusal only, and tries again after a failure
  of the transport.
* `Duocb.TimedSession.Undisturbed` — no handshake is cut off without a reason of the peer.

## Main results

* `Duocb.authAsDialerKey_outcome` — a handshake of a dialer fails in one of the three ways.
* `Duocb.TimedSession.fatal_only_if_refused` — a dialer stops for refusals only in exactly the runs
  in which no handshake is cut off, and there it waits for its peer until it has a reason to stop.
* `Duocb.TimedSession.lost_stream_fatal` — a dialer that stops when a stream breaks.
-/

namespace Duocb

/-! ## How a handshake fails -/

/-- The transport failed under an operation of a handshake. -/
def lost : HandshakeEvt → Bool
  | ⟨.sessionStream, (.error _ : Except Error Unit)⟩ => true
  | ⟨.write _, (.error _ : Except Error Unit)⟩ => true
  | ⟨.read _, (.error _ : Except Error Frame)⟩ => true
  | _ => false

/-- After the history `h`, a message of the dialer does not fit in a frame, or a frame it has read
is not the message that is due: the challenge first, and then the verdict. -/
def Garbled (identity : Identity) (h : List HandshakeEvt) : HandshakeEvt → Prop
  | ⟨.randomNonce, (nonce : String)⟩ =>
    MAX_CONTROL_MESSAGE_SIZE < (AuthRequest.keyRequest identity.publicKey.toHex nonce).toFrame.size
  | ⟨.signAuth _, (proof : String)⟩ =>
    MAX_CONTROL_MESSAGE_SIZE < (KeyProof.new proof).toFrame.size
  | ⟨.read _, (.ok frame : Except Error Frame)⟩ =>
    if received h = [] then ∀ challenge, decodeKeyChallenge frame ≠ .ok challenge
    else ∀ response, decodeAuthResponse frame ≠ .ok response
  | _ => False

section Dialer

variable (C : Crypto) (identity : Identity) (expectedPeer : PublicKey)
  (remoteId ownId : EndpointId)

/-- After the history `h`, the peer presents another key than expected, or a proof that does not
verify over the nonce that was drawn, or refuses the dialer. -/
def Refused (h : List HandshakeEvt) : HandshakeEvt → Prop
  | ⟨.read _, (.ok frame : Except Error Frame)⟩ =>
    if received h = [] then ∃ challenge, decodeKeyChallenge frame = .ok challenge ∧
      (C.parseKey challenge.publicKey ≠ some expectedPeer ∨
        ∃ nonce ∈ drawn h, C.verifyAuthSignature expectedPeer
          (KeyAuth.authTranscript "listener" identity.publicKey expectedPeer nonce challenge.nonce
            ownId.toString remoteId.toString) challenge.proof ≠ .ok ())
    else ∃ response, decodeAuthResponse frame = .ok response ∧ response.accepted = false
  | _ => False

/-- A refusal reaches the dialer: neither the transport failed nor the message was unreadable.

**Proof sketch.** By what was read: a challenge that was decoded and is refused, or a verdict that
was decoded and rejects. -/
lemma Refused.arrives {h : List HandshakeEvt} {e : HandshakeEvt}
    (hr : Refused C identity expectedPeer remoteId ownId h e) :
    lost e = false ∧ ¬ Garbled identity h e := by
  rcases e with ⟨o, a⟩
  cases o with
  | read max =>
    rcases (a : Except Error Frame) with err | frame
    · exact hr.elim
    · refine ⟨rfl, fun hg => ?_⟩
      simp only [Refused] at hr
      simp only [Garbled] at hg
      split at hr <;> rename_i hrec
      · obtain ⟨challenge, hdec, -⟩ := hr
        rw [if_pos hrec] at hg
        exact hg challenge hdec
      · obtain ⟨response, hdec, -⟩ := hr
        rw [if_neg hrec] at hg
        exact hg response hdec
  | _ => exact hr.elim

/-- No operation of a history has failed. -/
def Sound (h : List HandshakeEvt) : Prop :=
  ∀ h₁ e h₂, h = h₁ ++ e :: h₂ → lost e = false ∧ ¬ Garbled identity h₁ e

/-- How a handshake of a dialer ends: with every operation done, or in the failure of the last
one. -/
def Outcome {α : Type} (h : List HandshakeEvt) : Except Error α → Prop
  | .ok _ => Sound identity h
  | .error _ => ∃ h' e, h = h' ++ [e] ∧ (lost e = true ∨ Garbled identity h' e ∨
      Refused C identity expectedPeer remoteId ownId h' e)

variable {identity}

/-- An empty history is sound. -/
lemma sound_nil : Sound identity [] := by
  intro h₁ e h₂ h
  simp at h

/-- A sound history stays sound with an event that neither loses the connection nor brings a garbled
frame.

**Proof sketch.** An event of the longer history is one of the old ones, or it is the last one, for
which the hypotheses speak. -/
lemma Sound.snoc {h : List HandshakeEvt} (hs : Sound identity h) {e : HandshakeEvt}
    (hl : lost e = false) (hg : ¬ Garbled identity h e) : Sound identity (h ++ [e]) := by
  intro h₁ e' h₂ heq
  rcases List.append_eq_append_iff.1 heq with ⟨as, rfl, has⟩ | ⟨as, rfl, has⟩
  · rcases as with _ | ⟨a, as⟩
    · simp only [List.nil_append, List.cons.injEq] at has
      obtain ⟨rfl, -⟩ := has
      exact ⟨hl, by rwa [List.append_nil]⟩
    · simp at has
  · rcases as with _ | ⟨a, as⟩
    · simp only [List.nil_append, List.cons.injEq] at has
      obtain ⟨rfl, -⟩ := has
      exact ⟨hl, by rwa [List.append_nil] at hg⟩
    · simp only [List.cons_append, List.cons.injEq] at has
      obtain ⟨rfl, rfl⟩ := has
      exact hs h₁ e' as rfl

variable (identity)

/-- A message that was encoded fits in a frame. -/
lemma encodes_iff {fs : Frame} {name : String} : (∃ frame,
    encodeLengthPrefixed fs MAX_CONTROL_MESSAGE_SIZE name = .ok frame) ↔
      ¬ MAX_CONTROL_MESSAGE_SIZE < fs.size := by
  rw [Nat.not_lt]
  constructor
  · rintro ⟨frame, h⟩
    exact (encodeLengthPrefixed_ok.1 h).2
  · intro h
    exact ⟨fs, encodeLengthPrefixed_ok.2 ⟨rfl, h⟩⟩

/-- A message that was not encoded does not fit in a frame. -/
lemma size_of_error {fs : Frame} {name : String} {e : Error}
    (h : encodeLengthPrefixed fs MAX_CONTROL_MESSAGE_SIZE name = .error e) :
    MAX_CONTROL_MESSAGE_SIZE < fs.size := by
  by_contra hfits
  obtain ⟨frame, hok⟩ := encodes_iff.2 hfits
  rw [h] at hok
  cases hok

/-- A context makes no result of an error. -/
lemma ne_of_withContext {T : Type} {r : Except Error T} {m : String} {e : Error}
    (h : withContext r m = .error e) (t : T) : r ≠ .ok t := by
  rintro rfl
  cases h

/-- **How a key handshake goes.** It performs an operation only when all before it were done, and it
fails in one of three ways.

**Proof sketch.** The handshake is followed operation by operation. Each answer that is no failure
extends a sound history; each that is one ends the handshake. -/
theorem dialerHandshake_outcome :
    Prog.Safe (fun _ _ => True) (fun h _ => Sound identity h)
      (Outcome C identity expectedPeer remoteId ownId) [⟨.sessionStream, .ok ()⟩]
      (KeyAuth.dialerHandshake C identity expectedPeer ownId.toString remoteId.toString) := by
  have h₀ : Sound identity [⟨.sessionStream, (.ok () : Except Error Unit)⟩] :=
    sound_nil.snoc rfl id
  unfold KeyAuth.dialerHandshake
  rw [safe_randomNonce_bind]
  refine ⟨h₀, fun nonce _ => ?_⟩
  rw [Prog.safe_ofExcept_bind]
  refine ⟨fun request hreq => ?_, fun e he => ⟨_, _, rfl, Or.inr (Or.inl (size_of_error he))⟩⟩
  have h₁ := h₀.snoc (e := ⟨.randomNonce, nonce⟩) rfl (encodes_iff.1 ⟨_, hreq⟩)
  rw [safe_writeFrame_bind]
  refine ⟨h₁, fun _ => ?_, fun e _ => ⟨_, _, rfl, Or.inl rfl⟩⟩
  have h₂ := h₁.snoc (e := ⟨.write request, (.ok () : Except Error Unit)⟩) rfl id
  rw [safe_readLengthPrefixed_bind]
  refine ⟨h₂, fun frame _ => ?_, fun e _ => ⟨_, _, rfl, Or.inl rfl⟩⟩
  rw [Prog.safe_ofExcept_bind]
  refine ⟨fun challenge hch => ?_, fun e he => ⟨_, _, rfl, Or.inr (Or.inl (ne_of_withContext he))⟩⟩
  replace hch := withContext_eq_ok.1 hch
  have h₃ := h₂.snoc (e := ⟨.read MAX_CONTROL_MESSAGE_SIZE, (.ok frame : Except Error Frame)⟩) rfl
    fun hg => hg challenge hch
  rw [Prog.safe_ofExcept_bind]
  refine ⟨fun serverKey hkey => ?_, fun e he => ⟨_, _, rfl, Or.inr (Or.inr
    ⟨challenge, hch, Or.inl fun hparse => ?_⟩)⟩⟩
  swap
  · rw [hparse] at he
    cases he
  replace hkey : C.parseKey challenge.publicKey = some serverKey := by
    rcases hp : C.parseKey challenge.publicKey with _ | k <;> simp_all
  rw [safe_ensure_bind]
  refine ⟨fun hpeer => ?_, fun hpeer => ⟨_, _, rfl, Or.inr (Or.inr
    ⟨challenge, hch, Or.inl fun hparse => ?_⟩)⟩⟩
  swap
  · rw [hkey] at hparse
    exact of_decide_eq_false hpeer (Option.some.inj hparse)
  obtain rfl : serverKey = expectedPeer := of_decide_eq_true hpeer
  rw [Prog.safe_ofExcept_bind]
  refine ⟨fun _ hproof => ?_, fun e he => ⟨_, _, rfl, Or.inr (Or.inr
    ⟨challenge, hch, Or.inr ⟨nonce, List.mem_singleton.2 rfl, fun hproof => ?_⟩⟩)⟩⟩
  swap
  · rw [hproof] at he
    cases he
  rw [safe_signAuth_bind]
  refine ⟨h₃, fun proof _ => ?_⟩
  rw [Prog.safe_ofExcept_bind]
  refine ⟨fun signed hsigned => ?_, fun e he => ⟨_, _, rfl, Or.inr (Or.inl (size_of_error he))⟩⟩
  have h₄ := h₃.snoc (e := ⟨.signAuth (KeyAuth.authTranscript "dialer" identity.publicKey serverKey
    nonce challenge.nonce ownId.toString remoteId.toString), proof⟩) rfl
    (encodes_iff.1 ⟨_, hsigned⟩)
  rw [safe_writeFrame_bind]
  refine ⟨h₄, fun _ => ?_, fun e _ => ⟨_, _, rfl, Or.inl rfl⟩⟩
  have h₅ := h₄.snoc (e := ⟨.write signed, (.ok () : Except Error Unit)⟩) rfl id
  rw [safe_readLengthPrefixed_bind]
  refine ⟨h₅, fun verdict _ => ?_, fun e _ => ⟨_, _, rfl, Or.inl rfl⟩⟩
  rw [Prog.safe_ofExcept_bind]
  refine ⟨fun response hresp => ?_, fun e he =>
    ⟨_, _, rfl, Or.inr (Or.inl (ne_of_withContext he))⟩⟩
  replace hresp := withContext_eq_ok.1 hresp
  have h₆ := h₅.snoc (e := ⟨.read MAX_CONTROL_MESSAGE_SIZE, (.ok verdict : Except Error Frame)⟩) rfl
    fun hg => hg response hresp
  unfold ensure
  split
  · exact h₆
  · rename_i hrefused
    exact ⟨_, _, rfl, Or.inr (Or.inr ⟨response, hresp, by simpa using hrefused⟩)⟩

/-- How the handshake of a dialer goes, from its stream on. It has no host to ask.

**Proof sketch.** The session stream comes first and its failure ends the handshake. The rest is the
handshake of the dialer, whose outcome is known, and its return. -/
theorem authAsDialerKey_outcome :
    Prog.Safe (fun _ _ => True) (fun h o => Sound identity h ∧ Auth.DialerDue o)
      (Outcome C identity expectedPeer remoteId ownId) []
      (authAsDialerKey C identity expectedPeer remoteId ownId) := by
  unfold authAsDialerKey
  rw [safe_sessionStream_bind]
  refine ⟨⟨sound_nil, trivial⟩, fun _ => ?_, fun e _ => ⟨[], _, rfl, Or.inl rfl⟩⟩
  refine ((dialerHandshake_outcome C identity expectedPeer remoteId ownId).and_uses
    (Auth.keyDialer_uses _ _ _ _)).bind ?_ ?_
  · exact fun h _ hs => hs
  · exact fun h e hf => hf

variable {C identity expectedPeer remoteId ownId}

/-- **How a handshake of a dialer is answered**: by its stream, and not by its host. The answer ends
it in an error when the transport failed, the message was unreadable or the peer refused, and always
then in the first two cases.

**Proof sketch.** The outcome of the program is applied to the history with the answer. A transport
that fails ends the program in an error at once, and the same holds for a frame that cannot be read.
-/
theorem authAsDialerKey_answered {auth auth' : Auth} {memory memory' : SessionMemory}
    {a : AuthLabel}
    (hf : Prog.Follows (authAsDialerKey C identity expectedPeer remoteId ownId) auth.hist auth.prog)
    (h : auth.step memory a = some (auth', memory')) :
    ∃ e, a = .io e ∧
      Prog.Follows (authAsDialerKey C identity expectedPeer remoteId ownId) auth'.hist auth'.prog ∧
      ((lost e = true ∨ Garbled identity auth.hist e) → ∃ err, auth'.prog = .fail err) ∧
      ∀ err, auth'.prog = .fail err → lost e = true ∨ Garbled identity auth.hist e ∨
        Refused C identity expectedPeer remoteId ownId auth.hist e := by
  have hsafe := authAsDialerKey_outcome C identity expectedPeer remoteId ownId
  obtain ⟨o, k, x, hprog, hauth', hans⟩ := Auth.step_cases h
  rw [hprog] at hf
  have hdue : Auth.DialerDue o := (hsafe.sound hf fun _ _ => trivial).2.1.2
  have hnone : ∀ now, auth.policy.answer memory now o = none := by
    intro now
    cases o <;> first | rfl | exact hdue.elim
  -- the label brings the answer
  have hio : a = .io ⟨o, x⟩ := by
    cases a with
    | policy now => simp [Auth.step, hprog, hnone] at h
    | io e =>
      simp only [Auth.step, hprog] at h
      split_ifs at h with he hn
      obtain ⟨o', y⟩ := e
      obtain rfl : o' = o := he
      have hhist := congrArg Auth.hist ((Prod.mk.inj (Option.some.inj h)).1.trans hauth')
      rw [List.singleton_inj.1 (List.append_cancel_left hhist)]
  obtain ⟨-, hend⟩ := hsafe.sound (hf.snoc x) fun _ _ => trivial
  rw [List.nil_append] at hend
  subst hauth'
  refine ⟨⟨o, x⟩, hio, hf.snoc x, fun hbad => ?_, fun err herr => ?_⟩
  · have hnot : ¬ Sound identity (auth.hist ++ [⟨o, x⟩]) := fun hs => by
      obtain ⟨hl, hg⟩ := hs auth.hist ⟨o, x⟩ [] rfl
      rcases hbad with hbad | hbad
      · rw [hl] at hbad
        cases hbad
      · exact hg hbad
    cases hk : k x with
    | ret r => rw [hk] at hend; exact absurd hend hnot
    | fail e => exact ⟨e, rfl⟩
    | call o' k' => rw [hk] at hend; exact absurd hend.1.1 hnot
  · rw [show k x = .fail err from herr] at hend
    obtain ⟨h', e', heq, hwhy⟩ := hend
    obtain ⟨rfl, he'⟩ := List.append_inj' heq rfl
    obtain rfl := List.singleton_inj.1 he'
    exact hwhy

end Dialer

/-! ## What a step of a dialer can do -/

/-- The message of a client that has no attempts left. -/
def giveUpMessage : String :=
  s!"Could not reach the peer after {MAX_CONNECT_ATTEMPTS} attempts" ++
    " — press Retry to try again"

namespace Session

/-- An attempt of a dialer to connect has failed: its target was not found, or not reached, or the
transport failed in the handshake and the peer gave no reason. -/
def failedAttempt (s : Session) (l : SessionLabel) : Bool :=
  match s.phase, l with
  | .resolving, .resolved (.error _) => true
  | .connecting, .dialed (.error _) => true
  | .authenticating _ _, .auth (.io e) closeCode =>
    lost e && (closeCode.bind authCloseReason).isNone
  | _, _ => false

/-- A task that authenticates a connection. -/
def Authenticating (s : Session) : Prop := ∃ conn auth, s.phase = .authenticating conn auth

/-- A task that pumps a connection. -/
def Pumping (s : Session) : Prop := ∃ conn hist p, s.phase = .pumping conn hist p

/-- Why a dialer that does not authenticate stops, other than for want of attempts. None of these
depends on what the peer says. -/
inductive Stops (ownId : EndpointId) (identity : KeyIdentity) (peer : PublicKey) (s : Session) :
    SessionLabel → Prop where
  /-- It is cancelled. -/
  | cancelled (l : SessionLabel) (h : s.cancelled = true) : Stops ownId identity peer s l
  /-- It is its own target. -/
  | selfDial (h : s.phase = .resolving) : Stops ownId identity peer s (.resolved (.ok ownId))
  /-- It has no endpoint. -/
  | unbound (e : Error) (h : s.phase = .starting) : Stops ownId identity peer s (.bound (.error e))
  /-- The card it holds for its peer is not valid as it begins. -/
  | lapsed (now : ℕ) (card : IdentityCard) (h : s.phase = .spawned)
      (hcard : identity.peer peer = some card) (hlapsed : card.isValidAt now = false) :
      Stops ownId identity peer s (.begin now)
  /-- It had stopped before. -/
  | over (l : SessionLabel) (h : s.phase.Over) : Stops ownId identity peer s l

/-- **Everything a step of a dialer can do.** It is the step function of a dialer read as a
relation, by what becomes of its attempts and of its handshake. -/
inductive ClientStepped (C : Crypto) (ownId : EndpointId) (identity : KeyIdentity)
    (peer : PublicKey) (s : Session) (memory : SessionMemory) :
    SessionLabel → Session → SessionMemory → List Out → Prop where
  /-- It goes on, or makes a connection that it will authenticate. -/
  | goes (l : SessionLabel) (s' : Session) (outs : List Out) (from_ : ¬ s.Authenticating)
      (work : ¬ s.phase.Over) (into : s'.phase.Live) (made : s.failedAttempt l = false)
      (attempts : s'.attempts = s.attempts) (before : s'.connectedBefore = s.connectedBefore)
      (pumps : s'.Pumping ↔ s.Pumping)
      (greets : ∀ conn auth, s'.phase = .authenticating conn auth → auth.hist = [] ∧
        auth.prog = authAsDialerKey C identity.identity peer conn.remoteId ownId)
      (silent : Out.error giveUpMessage ∉ outs) :
      ClientStepped C ownId identity peer s memory l s' memory outs
  /-- Its authentication goes on. -/
  | answers (a : AuthLabel) (code : Option ℕ) (conn : Conn) (auth auth' : Auth)
      (memory' : SessionMemory) (from_ : s.phase = .authenticating conn auth)
      (step : auth.step memory a = some (auth', memory')) (going : ∃ o k, auth'.prog = .call o k) :
      ClientStepped C ownId identity peer s memory (.auth a code)
        (s.at' (.authenticating conn auth')) memory' []
  /-- Its authentication succeeded. -/
  | connects (a : AuthLabel) (code : Option ℕ) (conn : Conn) (auth auth' : Auth)
      (memory' : SessionMemory) (key : Option PublicKey)
      (from_ : s.phase = .authenticating conn auth)
      (step : auth.step memory a = some (auth', memory')) (done : auth'.prog = .ret key) :
      ClientStepped C ownId identity peer s memory (.auth a code)
        { s with phase := .pumping conn auth'.hist .start, attempts := 0, connectedBefore := true }
        memory' [.event (.peerPaired conn.remoteId.toString (some peer)), .status .connected]
  /-- Its authentication failed. -/
  | fails (a : AuthLabel) (code : Option ℕ) (conn : Conn) (auth auth' : Auth)
      (memory' : SessionMemory) (e : Error) (from_ : s.phase = .authenticating conn auth)
      (step : auth.step memory a = some (auth', memory')) (failed : auth'.prog = .fail e) :
      ClientStepped C ownId identity peer s memory (.auth a code) (s.at' .closing) memory'
        [.error (authFailure e code), .status .idle]
  /-- Its authentication took too long. -/
  | timesOut (from_ : s.Authenticating) :
      ClientStepped C ownId identity peer s memory .authTimeout (s.at' .closing) memory
        [.error "Application-key authentication timed out", .status .idle]
  /-- It did not find its target, or did not reach it. -/
  | misses (l : SessionLabel) (from_ : s.phase = .resolving ∨ s.phase = .connecting)
      (missed : s.failedAttempt l = true) :
      ClientStepped C ownId identity peer s memory l (attemptFailed s).1 memory (attemptFailed s).2
  /-- Its connection is gone. -/
  | drops (a : PumpLabel) (from_ : s.Pumping) :
      ClientStepped C ownId identity peer s memory (.pump a) (attemptFailed s).1 memory
        (.event .peerDisconnected :: (attemptFailed s).2)
  /-- It stops, or has stopped. -/
  | stops (l : SessionLabel) (s' : Session) (outs : List Out) (from_ : ¬ s.Authenticating)
      (into : s'.phase.Over) (why : Stops ownId identity peer s l)
      (made : s.failedAttempt l = false) (attempts : s'.attempts = s.attempts)
      (before : s'.connectedBefore = s.connectedBefore)
      (silent : Out.error giveUpMessage ∉ outs) :
      ClientStepped C ownId identity peer s memory l s' memory outs

variable {C : Crypto} {ownId : EndpointId} {s s' : Session} {memory memory' : SessionMemory}
  {l : SessionLabel} {outs : List Out} {identity : KeyIdentity} {peer : PublicKey}

/-- A message that begins otherwise is not the one of a client that gives up. -/
lemma ne_giveUpMessage {m : String} (h : m.toList.head? ≠ some 'C') : m ≠ giveUpMessage := by
  rintro rfl
  exact h (by decide +kernel)

/-- What stands behind a text does not change how it begins. -/
lemma head?_append {m rest : String} {c : Char} (h : m.toList.head? = some c) :
    (m ++ rest).toList.head? = some c := by
  rw [String.toList_append, List.head?_append, h]
  rfl

/-- What a dialer reports of a card that is not valid. -/
lemma expiredCardMessage_ne (card : IdentityCard) (now : ℕ) :
    expiredCardMessage card now ≠ giveUpMessage := by
  have hhead : (expiredCardMessage card now).toList.head? = some 'T' := by
    unfold expiredCardMessage
    split
    · exact head?_append (head?_append (by decide +kernel))
    · exact head?_append (head?_append (by decide +kernel))
  exact ne_giveUpMessage (by rw [hhead]; decide)

/-- No pump reports that the client gives up.

**Proof sketch.** By the steps of the pump. The only error among its outputs begins with another
letter. -/
lemma pump_not_giveUp {p : Pump} {clip clip' : Clip} {a : PumpLabel} {r : PumpState}
    {out : List PumpOut} (h : p.step clip a = some (r, clip', out)) (conn : Conn) :
    Out.error giveUpMessage ∉ out.map (pumpOut conn) := by
  intro hmem
  obtain ⟨o, ho, he⟩ := List.mem_map.1 hmem
  cases Pump.step_cases h with
  | refused text rest ms e =>
    obtain rfl := List.mem_singleton.1 ho
    have hhead : (notSent e).toList.head? = some 'N' :=
      head?_append (head?_append (head?_append (head?_append (by decide +kernel))))
    have hne : notSent e ≠ giveUpMessage := ne_giveUpMessage (by rw [hhead]; decide)
    exact hne (NetEvent.error.inj (Out.event.inj he))
  | sent | received | pulled | resent =>
    simp only [List.mem_cons, List.not_mem_nil, or_false] at ho
    rcases ho with rfl | rfl <;> cases he
  | _ => cases ho

/-- Where a failed attempt leaves a dialer. -/
lemma attemptFailed_phase (s : Session) : (attemptFailed s).1.phase =
    if s.connectedBefore = true ∧ MAX_CONNECT_ATTEMPTS ≤ s.attempts + 1 then .closing
    else .sleeping := by
  unfold attemptFailed
  cases s.connectedBefore
  · simp
  · by_cases h : MAX_CONNECT_ATTEMPTS ≤ s.attempts + 1 <;> simp [h]

/-- A failed attempt is counted, and changes nothing else. -/
lemma attemptFailed_counts (s : Session) : (attemptFailed s).1.attempts = s.attempts + 1 ∧
    (attemptFailed s).1.connectedBefore = s.connectedBefore := by
  simp only [attemptFailed]
  split_ifs <;> exact ⟨rfl, rfl⟩

/-- A failed attempt leaves a dialer without a connection. -/
lemma attemptFailed_alone (s : Session) :
    ¬ (attemptFailed s).1.Authenticating ∧ ¬ (attemptFailed s).1.Pumping := by
  have hphase := attemptFailed_phase s
  constructor
  · rintro ⟨conn, auth, h⟩
    rw [h] at hphase
    split_ifs at hphase
  · rintro ⟨conn, hist, p, h⟩
    rw [h] at hphase
    split_ifs at hphase

/-- **Every step of a dialer is one of the list.**

**Proof sketch.** One constructor of the relation for each branch of the step function of a dialer,
with what the branch does to the counters. -/
theorem clientStep_moves
    (h : clientStep C ownId identity peer s memory l = some (s', memory', outs)) :
    ClientStepped C ownId identity peer s memory l s' memory' outs := by
  have alone :
      ∀ {phase : Phase}, s.phase = phase → (∀ conn auth, phase ≠ .authenticating conn auth) →
      ¬ s.Authenticating := by
    rintro phase hphase hne ⟨conn, auth, hp⟩
    exact hne conn auth (hphase.symm.trans hp)
  have still : ∀ {phase : Phase}, s.phase = phase → (∀ conn hist p, phase ≠ .pumping conn hist p) →
      ¬ s.Pumping := by
    rintro phase hphase hne ⟨conn, hist, p, hp⟩
    exact hne conn hist p (hphase.symm.trans hp)
  unfold clientStep at h
  split at h
  · -- it begins
    rename_i now hphase
    have hmade : s.failedAttempt (.begin now) = false := by simp [failedAttempt, hphase]
    split at h
    · rename_i card hcard
      obtain ⟨hcard, hlapsed⟩ := Option.filter_eq_some_iff.1 hcard
      obtain ⟨rfl, rfl, rfl⟩ := by simpa using h
      refine .stops _ _ _ (alone hphase (by simp)) trivial
        (.lapsed now card hphase hcard (by simpa using hlapsed)) hmade rfl rfl ?_
      simp [Out.status, Out.error, (expiredCardMessage_ne card now).symm]
    · obtain ⟨rfl, rfl, rfl⟩ := by simpa using h
      exact .goes _ _ _ (alone hphase (by simp)) (by rw [hphase]; exact id) trivial hmade rfl rfl
        (iff_of_false (by simp [Pumping]) (still hphase (by simp))) (by simp)
        (by simp [Out.status, Out.error])
  · -- it has no endpoint
    rename_i e hphase
    obtain ⟨rfl, rfl, rfl⟩ := by simpa [failedToStart] using h
    refine .stops _ _ _ (alone hphase (by simp)) trivial (.unbound e hphase)
      (by simp [failedAttempt, hphase]) rfl rfl ?_
    have hhead : ("Failed to start: " ++ e.display).toList.head? = some 'F' :=
      head?_append (by decide +kernel)
    have hne : "Failed to start: " ++ e.display ≠ giveUpMessage :=
      ne_giveUpMessage (by rw [hhead]; decide)
    simp [Out.status, Out.error, hne.symm]
  · -- it has one
    rename_i hphase
    obtain ⟨rfl, rfl, rfl⟩ := by simpa using h
    exact .goes _ _ _ (alone hphase (by simp)) (by rw [hphase]; exact id) trivial
      (by simp [failedAttempt, hphase]) rfl rfl
      (iff_of_false (by simp [Pumping]) (still hphase (by simp))) (by simp)
      (by simp [Out.status, Out.error])
  · -- it is cancelled as it looks for its target
    rename_i hphase
    split_ifs at h with hc
    obtain ⟨rfl, rfl, rfl⟩ := by simpa using h
    exact .stops _ _ _ (alone hphase (by simp)) trivial (.cancelled _ hc)
      (by simp [failedAttempt, hphase]) rfl rfl (by simp)
  · -- it has found it
    rename_i target hphase
    have hmade : s.failedAttempt (.resolved (.ok target)) = false := by simp [failedAttempt, hphase]
    split_ifs at h with hown
    · subst hown
      obtain ⟨rfl, rfl, rfl⟩ := by simpa using h
      refine .stops _ _ _ (alone hphase (by simp)) trivial (.selfDial hphase) hmade rfl rfl ?_
      have hne : "That is this device's own node id — enter the other device's id" ≠
          giveUpMessage := ne_giveUpMessage (by decide +kernel)
      simp [Out.status, Out.error, hne.symm]
    · obtain ⟨rfl, rfl, rfl⟩ := by simpa using h
      exact .goes _ _ _ (alone hphase (by simp)) (by rw [hphase]; exact id) trivial hmade rfl rfl
        (iff_of_false (by simp [Pumping]) (still hphase (by simp))) (by simp)
        (by simp [Out.status, Out.error])
  · -- it has not
    rename_i e hphase
    obtain ⟨rfl, rfl, rfl⟩ := by simpa using h
    exact .misses _ (Or.inl hphase) (by simp [failedAttempt, hphase])
  · -- it is cancelled as it connects
    rename_i hphase
    obtain ⟨hc, rfl, rfl, rfl⟩ := cancel?_cases h
    exact .stops _ _ _ (alone hphase (by simp)) trivial (.cancelled _ hc)
      (by simp [failedAttempt, hphase]) rfl rfl (by simp)
  · -- it has reached its target
    rename_i conn hphase
    obtain ⟨rfl, rfl, rfl⟩ := by simpa using h
    refine .goes _ _ _ (alone hphase (by simp)) (by rw [hphase]; exact id) trivial
      (by simp [failedAttempt, hphase]) rfl rfl
      (iff_of_false (by simp [Pumping, greet]) (still hphase (by simp))) ?_
      (by simp [Out.status, Out.error])
    rintro _ _ ⟨⟩
    exact ⟨rfl, rfl⟩
  · -- it has not
    rename_i e hphase
    obtain ⟨rfl, rfl, rfl⟩ := by simpa using h
    exact .misses _ (Or.inr hphase) (by simp [failedAttempt, hphase])
  · -- it authenticates
    rename_i conn auth a code hphase
    obtain ⟨auth', hstep, ⟨hgo, rfl, rfl⟩ | ⟨key, hprog, hok⟩ | ⟨e, hprog, herr⟩⟩ :=
      authStep_cases h
    · exact .answers a code conn auth auth' _ hphase hstep hgo
    · obtain ⟨rfl, rfl⟩ := Prod.mk.inj hok
      exact .connects a code conn auth auth' _ key hphase hstep hprog
    · obtain ⟨rfl, rfl⟩ := Prod.mk.inj herr
      exact .fails a code conn auth auth' _ e hphase hstep hprog
  · -- it has authenticated for too long
    rename_i conn auth hphase
    obtain ⟨rfl, rfl, rfl⟩ := by simpa using h
    exact .timesOut ⟨conn, auth, hphase⟩
  · -- it pumps
    rename_i conn hist p a hphase
    have hmade : s.failedAttempt (.pump a) = false := by simp [failedAttempt, hphase]
    obtain ⟨rfl, ⟨p', clip', out, hstep, rfl, rfl⟩ | ⟨r, clip', out, hstep, hended⟩⟩ :=
      pumpStep_cases h
    · exact .goes _ _ _ (alone hphase (by simp)) (by rw [hphase]; exact id) trivial hmade rfl rfl
        (iff_of_true ⟨conn, hist, p', rfl⟩ ⟨conn, hist, p, hphase⟩) (by simp)
        (pump_not_giveUp hstep conn)
    · split at hended
      · rename_i hc
        obtain ⟨rfl, rfl⟩ := Prod.mk.inj hended
        exact .stops _ _ _ (alone hphase (by simp)) trivial (.cancelled _ hc) hmade rfl rfl
          (by simp [Out.error])
      · obtain ⟨rfl, rfl⟩ := Prod.mk.inj hended
        exact .drops a ⟨conn, hist, p, hphase⟩
  · -- it is cancelled as it pumps
    rename_i conn hist p hphase
    obtain ⟨hc, rfl, rfl, rfl⟩ := cancel?_cases h
    exact .stops _ _ _ (alone hphase (by simp)) trivial (.cancelled _ hc)
      (by simp [failedAttempt, hphase]) rfl rfl (by simp [Out.error])
  · -- it is cancelled as it waits
    rename_i hphase
    obtain ⟨hc, rfl, rfl, rfl⟩ := cancel?_cases h
    exact .stops _ _ _ (alone hphase (by simp)) trivial (.cancelled _ hc)
      (by simp [failedAttempt, hphase]) rfl rfl (by simp)
  · -- it has waited
    rename_i hphase
    obtain ⟨rfl, rfl, rfl⟩ := by simpa using h
    exact .goes _ _ _ (alone hphase (by simp)) (by rw [hphase]; exact id) trivial
      (by simp [failedAttempt, hphase]) rfl rfl
      (iff_of_false (by simp [Pumping]) (still hphase (by simp))) (by simp)
      (by simp [Out.status, Out.error])
  · -- it has closed its endpoint
    rename_i hphase
    obtain ⟨rfl, rfl, rfl⟩ := by simpa using h
    exact .stops _ _ _ (alone hphase (by simp)) trivial (.over _ (by rw [hphase]; trivial))
      (by simp [failedAttempt, hphase]) rfl rfl (by simp)
  · cases h

end Session

namespace TimedSession

/-! ## Runs of a dialer -/

section Dialing

variable (C : Crypto) (ownId : EndpointId) (identity : KeyIdentity) (peer : PublicKey)

/-- What holds of a dialer over a whole run: it follows its handshake, and it has connected before
it pumps. -/
structure Dials (channel : SignalChannel) (c : TimedSession) : Prop where
  kind : c.session.kind = .client (.key identity peer channel)
  follows : ∀ conn auth, c.session.phase = .authenticating conn auth → Prog.Follows
    (authAsDialerKey C identity.identity peer conn.remoteId ownId) auth.hist auth.prog
  connected : c.session.Pumping → c.session.connectedBefore = true

/-- What ends an authentication of a dialer for good: the peer closed the connection with a reason,
it refused the dialer or did not prove itself, or it took too long. -/
inductive Fatal (c : TimedSession) : TimedLabel → Prop where
  | closed (a : AuthLabel) (code : ℕ) (reason : String) (h : authCloseReason code = some reason) :
      Fatal c (.own (.auth a (some code)))
  | refused (conn : Conn) (auth : Auth) (e : HandshakeEvt) (code : Option ℕ)
      (from_ : c.session.phase = .authenticating conn auth)
      (h : Refused C identity.identity peer conn.remoteId ownId auth.hist e) :
      Fatal c (.own (.auth (.io e) code))
  | timedOut : Fatal c (.own .authTimeout)

/-- A dialer stops as it authenticates only for a reason that is fatal, and a failure of the
transport for which the peer gave no reason is a failed attempt like any other. -/
structure Judged (c : TimedSession) (l : TimedLabel) : Prop where
  fatal : ∀ c' outs, c.step C ownId l = some (c', outs) → c.session.Authenticating →
    c'.session.phase.Over → Fatal C ownId identity peer c l
  retried : ∀ c' outs e code, c.step C ownId l = some (c', outs) → c.session.Authenticating →
    l = .own (.auth (.io e) code) → lost e = true → code.bind authCloseReason = none →
    (c'.session, outs) = attemptFailed c.session

/-- No handshake of the dialer is cut off by its transport or by an unreadable message, unless the
peer closed the connection with a reason. -/
def Undisturbed (c : TimedSession) (l : TimedLabel) : Prop :=
  ∀ conn auth e code, c.session.phase = .authenticating conn auth →
    l = .own (.auth (.io e) code) → lost e = true ∨ Garbled identity.identity auth.hist e →
    (code.bind authCloseReason).isSome

end Dialing

variable {C : Crypto} {ownId : EndpointId} {identity : KeyIdentity} {peer : PublicKey}
  {channel : SignalChannel} {c c' : TimedSession} {l : TimedLabel} {outs : List Out}

/-- A step of a dialer beside a clock: its own, or none that moves it. -/
lemma Dials.cases (h : c.Dials C ownId identity peer channel)
    (hstep : c.step C ownId l = some (c', outs)) :
    (∃ a, l = .own a ∧ Session.ClientStepped C ownId identity peer c.session c.memory a c'.session
      c'.memory outs) ∨
    ((∀ a, l ≠ .own a) ∧ c'.session.phase = c.session.phase ∧ c'.session.kind = c.session.kind ∧
      c'.session.attempts = c.session.attempts ∧
      c'.session.connectedBefore = c.session.connectedBefore ∧ outs = []) := by
  obtain ⟨a, s', memory', rfl, -, hs, rfl⟩ | ⟨hother, hstill, houts⟩ := own_or_still hstep
  · simp only [Session.step, h.kind] at hs
    exact Or.inl ⟨a, rfl, Session.clientStep_moves hs⟩
  · exact Or.inr ⟨hother, hstill.phase, hstill.kind, hstill.attempts, hstill.connectedBefore, houts⟩

/-- A dialer that has just begun dials for its peer. -/
lemma Dials.start (sid now : ℕ) (memory : SessionMemory) :
    (TimedSession.start sid (.client (.key identity peer channel)) memory now).Dials C ownId
      identity peer channel where
  kind := rfl
  follows _ _ h := by cases h
  connected h := by obtain ⟨_, _, _, h⟩ := h; cases h

/-- **Every step keeps what holds of a dialer.**

**Proof sketch.** By the moves of a dialer. A handshake that goes on follows its program, and one
that begins follows it from the start. A dialer without a connection has nothing to answer for. -/
lemma Dials.step (h : c.Dials C ownId identity peer channel)
    (hstep : c.step C ownId l = some (c', outs)) : c'.Dials C ownId identity peer channel := by
  have hkind := (kind_of_step hstep).trans h.kind
  -- a dialer that is left without a connection has nothing to answer for
  have alone : ¬ c'.session.Authenticating → ¬ c'.session.Pumping →
      c'.Dials C ownId identity peer channel := by
    intro ha hp
    exact ⟨hkind, fun conn auth hphase => absurd ⟨conn, auth, hphase⟩ ha, fun hp' => absurd hp' hp⟩
  have ended : c'.session.phase.Over → c'.Dials C ownId identity peer channel := by
    intro hover
    refine alone ?_ ?_
    · rintro ⟨conn, auth, hphase⟩
      rw [hphase] at hover
      exact hover
    · rintro ⟨conn, hist, p, hphase⟩
      rw [hphase] at hover
      exact hover
  obtain ⟨a, rfl, hmove⟩ | ⟨-, hphase, -, -, hbefore, -⟩ := h.cases hstep
  · generalize hs : c'.session = s' at hmove
    generalize c'.memory = memory' at hmove
    cases hmove with
    | goes _ _ _ _ _ _ _ _ before pumps greets =>
      refine ⟨hkind, fun conn auth hphase => ?_, fun hp => ?_⟩
      · rw [hs] at hphase
        obtain ⟨hhist, hprog⟩ := greets conn auth hphase
        rw [hhist, hprog]
        exact .nil _
      · rw [hs] at hp ⊢
        rw [before]
        exact h.connected (pumps.1 hp)
    | answers b code conn auth auth' _ from_ step =>
      refine ⟨hkind, fun conn' auth'' hphase => ?_, fun hp => ?_⟩
      · rw [hs] at hphase
        cases hphase
        obtain ⟨e, -, hf, -⟩ := authAsDialerKey_answered (h.follows conn auth from_) step
        exact hf
      · rw [hs] at hp
        obtain ⟨_, _, _, hp⟩ := hp
        cases hp
    | connects =>
      refine ⟨hkind, fun conn' auth'' hphase => ?_, fun _ => by rw [hs]⟩
      rw [hs] at hphase
      cases hphase
    | fails | timesOut => exact ended (by rw [hs]; trivial)
    | misses =>
      obtain ⟨ha, hp⟩ := Session.attemptFailed_alone c.session
      exact alone (by rwa [hs]) (by rwa [hs])
    | drops =>
      obtain ⟨ha, hp⟩ := Session.attemptFailed_alone c.session
      exact alone (by rwa [hs]) (by rwa [hs])
    | stops _ _ _ _ into => exact ended (by rwa [hs])
  · refine ⟨hkind, fun conn auth hp => h.follows conn auth (hphase ▸ hp), fun hp => ?_⟩
    rw [hbefore]
    refine h.connected ?_
    obtain ⟨conn, hist, p, hp⟩ := hp
    exact ⟨conn, hist, p, hphase ▸ hp⟩

/-- **What one step of a dialer does with a failure**: it judges it by what it is exactly when the
handshake is not cut off.

**Proof sketch.** In one direction a handshake that is cut off ends the dialer, and none of the
fatal reasons is there unless the peer gave one. In the other one a handshake fails by a refusal or
with a reason of the peer, and both are fatal. -/
lemma Dials.judged_iff (h : c.Dials C ownId identity peer channel)
    (hstep : c.step C ownId l = some (c', outs)) :
    c.Judged C ownId identity peer l ↔ c.Undisturbed identity l := by
  have same : ∀ c'' outs', c.step C ownId l = some (c'', outs') → c'' = c' ∧ outs' = outs := by
    intro c'' outs' h'
    exact Prod.mk.inj (Option.some.inj (h'.symm.trans hstep))
  constructor
  · -- a handshake that is cut off ends the dialer, and the reason is not fatal
    rintro hj conn auth e code hphase rfl hbad
    obtain ⟨a, ha, hmove⟩ | ⟨hown, -⟩ := h.cases hstep
    swap
    · exact absurd rfl (hown _)
    obtain rfl := TimedLabel.own.inj ha
    have hover : c'.session.phase.Over := by
      generalize c'.session = s' at hmove
      generalize c'.memory = memory' at hmove
      cases hmove with
      | goes _ _ _ from_ => exact absurd ⟨conn, auth, hphase⟩ from_
      | stops _ _ _ _ into => exact into
      | misses _ from_ =>
        rw [hphase] at from_
        rcases from_ with from_ | from_ <;> cases from_
      | answers _ _ conn' auth₀ auth' _ from_ step going =>
        cases hphase.symm.trans from_
        obtain ⟨e', he', -, hfail, -⟩ := authAsDialerKey_answered (h.follows _ _ from_) step
        obtain rfl := AuthLabel.io.inj he'
        obtain ⟨err, herr⟩ := hfail hbad
        obtain ⟨o, k, hcall⟩ := going
        cases herr.symm.trans hcall
      | connects _ _ conn' auth₀ auth' _ key from_ step done =>
        cases hphase.symm.trans from_
        obtain ⟨e', he', -, hfail, -⟩ := authAsDialerKey_answered (h.follows _ _ from_) step
        obtain rfl := AuthLabel.io.inj he'
        obtain ⟨err, herr⟩ := hfail hbad
        cases herr.symm.trans done
      | fails => trivial
    have hfatal := hj.fatal c' outs hstep ⟨conn, auth, hphase⟩ hover
    cases hfatal with
    | closed _ code reason hreason => simp [hreason]
    | refused conn' auth' _ _ from_ href =>
      cases hphase.symm.trans from_
      obtain ⟨hl, hg⟩ := href.arrives
      rcases hbad with hbad | hbad
      · rw [hl] at hbad
        cases hbad
      · exact absurd hbad hg
  · intro hu
    refine ⟨fun c'' outs' h' hauth hover => ?_, fun c'' outs' e code h' hauth hl hlost hcode => ?_⟩
    · obtain ⟨rfl, rfl⟩ := same c'' outs' h'
      obtain ⟨a, rfl, hmove⟩ | ⟨-, hphase, -⟩ := h.cases hstep
      · generalize c''.session = s' at hmove hover
        generalize c''.memory = memory' at hmove
        cases hmove with
        | goes _ _ _ from_ => exact absurd hauth from_
        | stops _ _ _ from_ => exact absurd hauth from_
        | misses _ from_ =>
          obtain ⟨conn, auth, hphase⟩ := hauth
          rw [hphase] at from_
          rcases from_ with from_ | from_ <;> cases from_
        | drops _ from_ =>
          obtain ⟨conn, auth, hphase⟩ := hauth
          obtain ⟨_, _, _, hp⟩ := from_
          cases hphase.symm.trans hp
        | answers => exact hover.elim
        | connects => exact hover.elim
        | timesOut => exact .timedOut
        | fails b code conn auth auth' _ err from_ step failed =>
          obtain ⟨e, rfl, -, -, hwhy⟩ := authAsDialerKey_answered (h.follows _ _ from_) step
          have hcut : lost e = true ∨ Garbled identity.identity auth.hist e →
              Fatal C ownId identity peer c (.own (.auth (.io e) code)) := by
            intro hbad
            have hsome := hu conn auth e code from_ rfl hbad
            cases code with
            | none => cases hsome
            | some code =>
              obtain ⟨reason, hreason⟩ := Option.isSome_iff_exists.1 hsome
              exact .closed _ _ reason hreason
          rcases hwhy err failed with hbad | hbad | href
          · exact hcut (Or.inl hbad)
          · exact hcut (Or.inr hbad)
          · exact .refused conn auth e code from_ href
      · obtain ⟨conn, auth, hp⟩ := hauth
        rw [hphase, hp] at hover
        exact hover.elim
    · -- a failure of the transport comes with a reason of the peer
      obtain ⟨conn, auth, hphase⟩ := hauth
      have hsome := hu conn auth e code hphase hl (Or.inl hlost)
      rw [hcode] at hsome
      cases hsome

/-- A dialer that stops before its first connection does so for a reason that is fatal, or because
it is cancelled, is its own target, has no endpoint or begins with a card that has lapsed.

**Proof sketch.** A handshake that ends the dialer does so for a fatal reason, by what is known of
it. Without one the moves of a dialer leave the four other ways to stop. -/
lemma Dials.stopped (h : c.Dials C ownId identity peer channel)
    (hstep : c.step C ownId l = some (c', outs)) (hj : c.Judged C ownId identity peer l)
    (hlive : ¬ c.session.phase.Over) (hover : c'.session.phase.Over)
    (hnever : c'.session.connectedBefore = false) :
    Fatal C ownId identity peer c l ∨
      ∃ a, l = .own a ∧ Session.Stops ownId identity peer c.session a := by
  by_cases hauth : c.session.Authenticating
  · exact Or.inl (hj.fatal c' outs hstep hauth hover)
  refine Or.inr ?_
  -- an attempt that fails is followed by another one
  have attempt : c.session.connectedBefore = false → ¬ (attemptFailed c.session).1.phase.Over := by
    intro hb
    rw [Session.attemptFailed_phase, if_neg (by simp [hb])]
    exact id
  obtain ⟨a, rfl, hmove⟩ | ⟨-, hphase, -⟩ := h.cases hstep
  · generalize c'.session = s' at hmove hover hnever
    generalize c'.memory = memory' at hmove
    cases hmove with
    | goes _ _ _ _ _ into =>
      cases hp : s'.phase <;> rw [hp] at into hover <;> first | exact into.elim | exact hover.elim
    | answers => exact hover.elim
    | connects => exact hover.elim
    | fails _ _ conn auth _ _ _ from_ => exact absurd ⟨conn, auth, from_⟩ hauth
    | timesOut from_ => exact absurd from_ hauth
    | misses =>
      rw [(Session.attemptFailed_counts _).2] at hnever
      exact absurd hover (attempt hnever)
    | drops =>
      rw [(Session.attemptFailed_counts _).2] at hnever
      exact absurd hover (attempt hnever)
    | stops _ _ _ _ _ why => exact ⟨a, rfl, why⟩
  · rw [hphase] at hover
    exact absurd hover hlive

/-- A dialer that has connected once has connected ever after.

**Proof sketch.** By the moves of a dialer. Only a handshake that succeeds sets the mark, and none
clears it. -/
lemma Dials.never_before (h : c.Dials C ownId identity peer channel)
    (hstep : c.step C ownId l = some (c', outs)) (hnever : c'.session.connectedBefore = false) :
    c.session.connectedBefore = false := by
  obtain ⟨a, rfl, hmove⟩ | ⟨-, -, -, -, hbefore, -⟩ := h.cases hstep
  · generalize c'.session = s' at hmove hnever
    generalize c'.memory = memory' at hmove
    cases hmove with
    | goes _ _ _ _ _ _ _ _ before => rwa [before] at hnever
    | stops _ _ _ _ _ _ _ _ before => rwa [before] at hnever
    | connects => cases hnever
    | misses => rwa [(Session.attemptFailed_counts _).2] at hnever
    | drops => rwa [(Session.attemptFailed_counts _).2] at hnever
    | _ => exact hnever
  · rwa [hbefore] at hnever

/-- **Only a refusal is fatal, in exactly the runs in which no handshake is cut off.** In every run
of a dialer, each authentication that fails is judged by what it is, if and only if none is cut off
by its transport or an unreadable message without a reason of the peer. In such a run, a dialer that
has never connected and has stopped did so in one step: for a refusal, or because it was cancelled,
was its own target, had no endpoint or began with a card that had lapsed.

**Proof sketch.** The two conditions agree at every step, under the invariant of a dialer, so they
agree for runs. The rest follows at the last step of a run, from the lemma about a dialer that
stops. -/
theorem fatal_only_if_refused {sid now : ℕ} {memory : SessionMemory} {labels : List TimedLabel}
    {before : List Out} (hrun : Machine.run (step C ownId)
      (.start sid (.client (.key identity peer channel)) memory now) labels = some (c, before)) :
    (Machine.Meets (fun c l => (c.step C ownId l).map Prod.fst) (Judged C ownId identity peer)
        (.start sid (.client (.key identity peer channel)) memory now) labels ↔
      Machine.Meets (fun c l => (c.step C ownId l).map Prod.fst) (Undisturbed identity)
        (.start sid (.client (.key identity peer channel)) memory now) labels) ∧
    (Machine.Meets (fun c l => (c.step C ownId l).map Prod.fst) (Undisturbed identity)
        (.start sid (.client (.key identity peer channel)) memory now) labels →
      c.session.connectedBefore = false → c.session.phase.Over →
      ∃ done l rest u v outs, labels = done ++ l :: rest ∧
        Machine.exec (fun c l => (c.step C ownId l).map Prod.fst)
          (.start sid (.client (.key identity peer channel)) memory now) done = some u ∧
        u.step C ownId l = some (v, outs) ∧ ¬ u.session.phase.Over ∧ v.session.phase.Over ∧
        (Fatal C ownId identity peer u l ∨
          ∃ a, l = .own a ∧ Session.Stops ownId identity peer u.session a)) := by
  have hexec := Machine.exec_of_run hrun
  have hstart : (TimedSession.start sid (.client (.key identity peer channel)) memory now).Dials C
      ownId identity peer channel := Dials.start sid now memory
  have keep : ∀ (c : TimedSession) l c', c.Dials C ownId identity peer channel →
      (c.step C ownId l).map Prod.fst = some c' → c'.Dials C ownId identity peer channel := by
    intro c l c' h hl
    obtain ⟨⟨c₁, outs⟩, hstep, rfl⟩ := Option.map_eq_some_iff.1 hl
    exact h.step hstep
  refine ⟨Machine.meets_congr keep (fun c l c' h hl => ?_) hstart hexec,
    fun hmeets hnever hover => ?_⟩
  · obtain ⟨⟨c₁, outs⟩, hstep, -⟩ := Option.map_eq_some_iff.1 hl
    exact h.judged_iff hstep
  · obtain ⟨done, l, rest, u, v, rfl, hdone, hl, hu, hv⟩ := Machine.exists_step_of_exec
      (P := fun c => c.session.phase.Over ∧ c.session.connectedBefore = false) (fun h => h.1)
      ⟨hover, hnever⟩ hexec
    obtain ⟨⟨v₁, outs⟩, hstep, rfl⟩ := Option.map_eq_some_iff.1 hl
    obtain ⟨hmeets, hlast⟩ := hmeets.of_append hdone
    have hdials :=
      Machine.exec_invariant (fun c l c' h _ hl => keep c l c' h hl) hstart hmeets hdone
    have hlive : ¬ u.session.phase.Over := fun h => hu ⟨h, hdials.never_before hstep hv.2⟩
    exact ⟨done, l, rest, u, v₁, outs, rfl, hdone, hstep, hlive, hv.1,
      hdials.stopped hstep ((hdials.judged_iff hstep).2 hlast.1) hlive hv.1 hv.2⟩

section Sample

open Sample

/-- The dialer finds its peer and reaches it, -/
def reaches : List TimedLabel :=
  [.own (.begin 0), .own (.bound (.ok ())), .own (.resolved (.ok hostId)),
    .own (.dialed (.ok ⟨0, hostId⟩))]

/-- and the session stream cannot be opened, with or without a reason of the peer. -/
def cutOff (closeCode : Option ℕ) : TimedLabel :=
  .own (.auth (.io ⟨.sessionStream, .error (.msg "connection lost")⟩) closeCode)

/-- Whether a dialer has stopped that was not cancelled and has never connected. -/
def stopped (c : TimedSession) : Bool :=
  (match c.session.phase with | .closing => true | _ => false) &&
    !c.session.connectedBefore && !c.session.cancelled

/-- A dialer that is found to have stopped closes its endpoint, was never connected, and was not
cancelled. -/
lemma stopped_iff (h : c.stopped = true) : c.session.phase = .closing ∧
    c.session.connectedBefore = false ∧ c.session.cancelled = false := by
  unfold stopped at h
  split at h
  · rename_i hclosing
    exact ⟨hclosing, by simpa using h⟩
  · cases h

/-- Whether a dialer authenticates. -/
def greeted (c : TimedSession) : Bool :=
  match c.session.phase with
  | .authenticating _ _ => true
  | _ => false

/-- Whether an authentication is answered only together with a reason of the peer. -/
def givesReason : TimedLabel → Bool
  | .own (.auth _ code) => (code.bind authCloseReason).isSome
  | _ => true

/-- A peer that closes the connection with a reason stops the dialer for good.

**Proof sketch.** The run is computed, and each of its failures comes with a reason of the peer. -/
theorem fatal_only_if_refused_sample : ∃ c before, Machine.run (step keyed joinerId) dialer
    (reaches ++ [cutOff (some AUTH_FAILED_CODE)]) = some (c, before) ∧ c.session.phase = .closing ∧
    Machine.Meets (fun c l => (c.step keyed joinerId l).map Prod.fst)
      (Judged keyed joinerId ⟨⟨ownKey⟩, ⟨ownKey, "dialer", 0, 10, "card"⟩, [peerCard], []⟩ peerKey)
      dialer (reaches ++ [cutOff (some AUTH_FAILED_CODE)]) := by
  have hrun : ((Machine.run (step keyed joinerId) dialer
      (reaches ++ [cutOff (some AUTH_FAILED_CODE)])).any fun r => r.1.stopped) = true := by
    decide +kernel
  obtain ⟨⟨c, before⟩, hexec, hstop⟩ := (Option.any_eq_true _ _).1 hrun
  refine ⟨c, before, hexec, (stopped_iff hstop).1, (fatal_only_if_refused hexec).1.2 ?_⟩
  -- no answer comes without a reason of the peer
  refine Machine.meets_of_check (c := fun _ => givesReason) ?_ (by decide +kernel)
  rintro c l hl conn auth e code - rfl -
  exact hl

/-- A dialer that has never connected stops when the session stream cannot be opened, though the
peer gave no reason and nobody cancelled it.

**Proof sketch.** The run is computed, and its last step is the one that the judgement refuses. -/
theorem lost_stream_fatal : ∃ c before, Machine.run (step keyed joinerId) dialer
    (reaches ++ [cutOff none]) = some (c, before) ∧ c.session.phase = .closing ∧
    c.session.connectedBefore = false ∧ c.session.cancelled = false ∧
    ¬ Machine.Meets (fun c l => (c.step keyed joinerId l).map Prod.fst)
      (Judged keyed joinerId ⟨⟨ownKey⟩, ⟨ownKey, "dialer", 0, 10, "card"⟩, [peerCard], []⟩ peerKey)
      dialer (reaches ++ [cutOff none]) := by
  have hrun : ((Machine.run (step keyed joinerId) dialer (reaches ++ [cutOff none])).any
      fun r => r.1.stopped) = true := by decide +kernel
  have hgreets : ((Machine.exec (fun c l => (step keyed joinerId c l).map Prod.fst) dialer
      reaches).any greeted) = true := by decide +kernel
  obtain ⟨⟨c, before⟩, hexec, hstop⟩ := (Option.any_eq_true _ _).1 hrun
  obtain ⟨u, hu, hauth⟩ := (Option.any_eq_true _ _).1 hgreets
  obtain ⟨hclosing, hnever, hcancel⟩ := stopped_iff hstop
  refine ⟨c, before, hexec, hclosing, hnever, hcancel, fun hmeets => ?_⟩
  obtain ⟨-, hlast⟩ := hmeets.of_append hu
  obtain ⟨u', hu', hrest⟩ := Machine.exec_append_eq_some.1 (Machine.exec_of_run hexec)
  obtain rfl : u' = u := Option.some.inj (hu'.symm.trans hu)
  obtain ⟨c', hc', hend⟩ := Machine.exec_cons_eq_some.1 hrest
  obtain rfl : c' = c := by simpa using hend
  obtain ⟨⟨c₁, outs⟩, hstep, rfl⟩ := Option.map_eq_some_iff.1 hc'
  unfold greeted at hauth
  split at hauth
  · rename_i conn auth hphase
    have hretried := hlast.1.retried c₁ outs _ none hstep ⟨conn, auth, hphase⟩ rfl rfl rfl
    have hsleeping := Session.attemptFailed_phase u'.session
    rw [← hretried, hclosing] at hsleeping
    split_ifs at hsleeping with hgive
    rw [← (Session.attemptFailed_counts u'.session).2, ← hretried, hnever] at hgive
    cases hgive.1
  · cases hauth

end Sample

end TimedSession

end Duocb
