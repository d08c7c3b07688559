import Duocb.PinAuth.Adversary
import Duocb.KeyAuth
import Duocb.Net.Claim

set_option relaxedAutoImplicit false
set_option autoImplicit false

/-!
# Authenticating a connection

Each side runs one handshake on the session stream of a fresh connection. The dialer runs the half
of the method it was started with; the listener reads which method the dialer opened with and runs
that half, if its mode has it. What a listener's handshake asks its host is answered here.

## Main definitions

* `Duocb.authAsListener`, `Duocb.authAsDialerKey`, `Duocb.authAsDialerPin` — the programs.
* `Duocb.Policy` — what the host answers a handshake with.
* `Duocb.Auth`, `Duocb.Auth.step` — an authentication under way, and one answer of it.

## Main results

* `Duocb.Auth.Inv.step` — an authentication follows its program, and its host answered by policy.
* `Duocb.Auth.Inv.listener_key`, `Duocb.Auth.Inv.listener_pin`, `Duocb.Auth.Inv.dialer_key` — what
  an authentication that succeeded has proved.
-/

namespace Duocb

/-! ## The programs -/

/-- Open or accept the session stream. -/
def sessionStream : Handshake Unit :=
  .call .sessionStream fun r : Except Error Unit => .ofExcept r

/-- What a handshake does after its stream is there, or is not. -/
lemma safe_sessionStream_bind {α : Type} {R : (o : Op) → Ans o → Prop}
    {I : List HandshakeEvt → Op → Prop} {Q : List HandshakeEvt → Except Error α → Prop}
    {h : List HandshakeEvt} {f : Unit → Handshake α} :
    Prog.Safe R I Q h (sessionStream >>= f) ↔ I h .sessionStream ∧
      (R .sessionStream (.ok ()) → Prog.Safe R I Q (h ++ [⟨.sessionStream, .ok ()⟩]) (f ())) ∧
      ∀ e, R .sessionStream (.error e) → Q (h ++ [⟨.sessionStream, .error e⟩]) (.error e) :=
  and_congr_right fun _ => Prog.forall_except.trans (and_congr_left fun _ => Unique.forall_iff)

/-- Read the dialer's opening request. -/
def readAuthRequest : Handshake AuthRequest :=
  .call (.read MAX_CONTROL_MESSAGE_SIZE) fun r : Except Error Frame =>
    .ofExcept (withContext r "Failed to read auth request" >>= fun requestBytes =>
      withContext (decodeAuthRequest requestBytes) "Invalid auth request")

/-- Snapshot the PIN passwords the host still honours. -/
def candidates : Handshake (List PinPassword) := .call .candidates .ret

/-- What a key-auth listener holds a dialer to: its own identity and trust store, and the one peer
the session was started for. -/
structure KeyListener where
  identity : KeyIdentity
  peerPublicKey : PublicKey
  deriving DecidableEq

section Programs

variable (C : Crypto)

/-- Authenticate a dialer, with whichever method it opened with. A host without an application key
refuses a key request. The result is the key that was proved, or none for a PIN. -/
def authAsListener (keyAuth : Option KeyListener) (remoteId ownId : EndpointId) :
    Handshake (Option PublicKey) := do
  sessionStream
  match ← readAuthRequest with
  | .key _ publicKey clientNonce => do
    let listener ← .ofExcept (match keyAuth with
      | some listener => .ok listener
      | none => .error (.msg "listener is not in key-auth mode"))
    let clientKey ← KeyAuth.listenerHandshake C listener.identity.identity publicKey clientNonce
      remoteId.toString ownId.toString
    return some clientKey
  | .pin _ pakes => do
    let passwords ← candidates
    PinAuth.listenerHandshake C passwords pakes remoteId.toString ownId.toString
    return none

/-- Authenticate to one expected peer with the application key. -/
def authAsDialerKey (identity : Identity) (expectedPeer : PublicKey) (remoteId ownId : EndpointId) :
    Handshake (Option PublicKey) := do
  sessionStream
  KeyAuth.dialerHandshake C identity expectedPeer ownId.toString remoteId.toString
  return some expectedPeer

/-- Authenticate with the card-setup PIN. -/
def authAsDialerPin (pin : String) (remoteId ownId : EndpointId) :
    Handshake (Option PublicKey) := do
  sessionStream
  PinAuth.dialerHandshake C pin ownId.toString remoteId.toString
  return none

end Programs

/-! ## The host's policy -/

/-- The wording both roles use when their stored card for the other side is outside its window. One
that is not valid yet points at the clocks, any other one has expired. -/
def expiredCardMessage (card : IdentityCard) (now : ℕ) : String :=
  if card.isNotYetValidAt now then
    "The identity card for " ++ card.name ++
      " is not valid yet — check the clock on this device and on that one"
  else
    "The identity card for " ++ card.name ++
      " expired — ask that device for a fresh card and import it again"

/-- The error of a refusal caused by an expired card. -/
def expiredCardError (card : IdentityCard) (now : ℕ) : Error :=
  (⟨some .expiredCard, ["the identity card for this device has expired"]⟩ : Error).context
    (expiredCardMessage card now)

/-- What a host answers a handshake from: its key-auth mode, whether it shows PINs, who dialed, and
the claim as it stood when the authentication began. -/
structure Policy where
  keyAuth : Option KeyListener
  pinCache : Bool
  remoteId : EndpointId
  existing : Option ClaimedPeer
  deriving DecidableEq

namespace Policy

/-- Whether a key may be served. The checks are in the order of the source: a host that uses keys, a
key with a card, the peer of this session, a valid card, and no pairing with another key. -/
def admits (policy : Policy) (now : ℕ) (clientKey : PublicKey) : Except Error Unit :=
  match policy.keyAuth with
  | none => .error (.msg "listener is not in key-auth mode")
  | some listener =>
    match listener.identity.peer clientKey with
    | none => .error (.msg "dialer application key is not locally trusted")
    | some card =>
      if clientKey ≠ listener.peerPublicKey then
        .error (.msg "dialer is not the device this session is connecting to")
      else if !card.isValidAt now then .error (expiredCardError card now)
      else if policy.existing.any fun claimed => claimed.applicationKey ≠ some clientKey then
        .error (.msg "already paired with another application identity")
      else .ok ()

/-- Whether the claim turns a dialer away that comes with a PIN. -/
def pinClaimedByOther (policy : Policy) : Bool :=
  policy.existing.any fun claimed =>
    claimed.applicationKey.isSome || claimed.nodeId ≠ some policy.remoteId

/-- The PIN passwords a dialer may prove. -/
def snapshot (policy : Policy) (recentPins : RecentPins) : List PinPassword :=
  if policy.pinClaimedByOther then [] else if policy.pinCache then recentPins else []

/-- What the host answers an operation with, and the claim afterwards; nothing, if the operation is
none of its own. -/
def answer (policy : Policy) (memory : SessionMemory) (now : ℕ) :
    (o : Op) → Option (Ans o × PairClaim)
  | .admitKey key => some (policy.admits now key, memory.claim)
  | .commitKey key => some (memory.claim.commitKey key policy.remoteId)
  | .candidates => some (policy.snapshot memory.recentPins, memory.claim)
  | .commitPin => some (memory.claim.commitPin policy.remoteId)
  | _ => none

/-- A key that was admitted is trusted, valid, and the one the session is for. -/
lemma admit_ok {policy : Policy} {now : ℕ} {key : PublicKey} (h : policy.admits now key = .ok ()) :
    ∃ listener card, policy.keyAuth = some listener ∧ listener.identity.peer key = some card ∧
      key = listener.peerPublicKey ∧ card.isValidAt now = true := by
  unfold admits at h
  split at h
  · cases h
  · rename_i listener hl
    split at h
    · cases h
    · rename_i card hcard
      split_ifs at h with h1 h2 h3
      exact ⟨listener, card, hl, hcard, not_not.1 h1, by simpa using h2⟩

end Policy

/-! ## An authentication under way -/

/-- An authentication: how its host answers, what has happened, and what is left to do. -/
structure Auth where
  policy : Policy
  hist : List HandshakeEvt
  prog : Handshake (Option PublicKey)

/-- How an operation of an authentication is answered. -/
inductive AuthLabel where
  /-- By the stream, the random source or the device's own key. -/
  | io (e : HandshakeEvt)
  /-- By the host, at `now`. -/
  | policy (now : ℕ)

namespace Auth

/-- The next operation of the authentication gets its answer. The stream answers its own operations,
and the host's policy and claim answer the others at the time given. -/
def step (auth : Auth) (memory : SessionMemory) : AuthLabel → Option (Auth × SessionMemory)
  | .io e =>
    match auth.prog with
    | .call o k =>
      if h : e.1 = o then
        if (auth.policy.answer memory 0 o).isNone then
          some ({ auth with hist := auth.hist ++ [e], prog := k (h ▸ e.2) }, memory)
        else none
      else none
    | _ => none
  | .policy now =>
    match auth.prog with
    | .call o k =>
      (auth.policy.answer memory now o).map fun (a, claim) =>
        ({ auth with hist := auth.hist ++ [⟨o, a⟩], prog := k a }, { memory with claim := claim })
    | _ => none

/-- The inversion rule of an authentication's step.

**Proof sketch.** By the label. The stream answers an operation that the host does not, and the
memory is as before. The host answers with its policy and its claim. -/
lemma step_cases {auth auth' : Auth} {memory memory' : SessionMemory} {l : AuthLabel}
    (h : auth.step memory l = some (auth', memory')) :
    ∃ (o : Op) (k : Ans o → Handshake (Option PublicKey)) (a : Ans o), auth.prog = .call o k ∧
      auth' = { auth with hist := auth.hist ++ [⟨o, a⟩], prog := k a } ∧
      ((auth.policy.answer memory 0 o = none ∧ memory' = memory) ∨
        ∃ now claim, auth.policy.answer memory now o = some (a, claim) ∧
          memory' = { memory with claim := claim }) := by
  cases l with
  | io e =>
    simp only [step] at h
    split at h
    · rename_i o k hprog
      split_ifs at h with he hans
      obtain ⟨o', a⟩ := e
      obtain rfl : o' = o := he
      obtain ⟨rfl, rfl⟩ := Prod.mk.inj (Option.some.inj h)
      exact ⟨o', k, a, hprog, rfl, Or.inl ⟨Option.isNone_iff_eq_none.1 hans, rfl⟩⟩
    · cases h
  | policy now =>
    simp only [step] at h
    split at h
    · rename_i o k hprog
      obtain ⟨⟨a, claim⟩, ha, hac⟩ := Option.map_eq_some_iff.1 h
      obtain ⟨rfl, rfl⟩ := Prod.mk.inj hac
      exact ⟨o, k, a, hprog, rfl, Or.inr ⟨now, claim, ha, rfl⟩⟩
    · cases h

/-- What an authentication may do to the memory: at most one call on its claim.

**Proof sketch.** By the operation. Only the two that ask for the claim change it, with the call of
this authentication. -/
lemma step_lent {auth auth' : Auth} {memory memory' : SessionMemory} {l : AuthLabel}
    (h : auth.step memory l = some (auth', memory')) : Lent memory memory' := by
  obtain ⟨o, k, a, -, -, ⟨-, rfl⟩ | ⟨now, claim, hans, rfl⟩⟩ := step_cases h
  · exact Lent.refl _
  · cases o with
    | admitKey key =>
      obtain ⟨-, rfl⟩ := Prod.mk.inj (Option.some.inj hans)
      exact Lent.refl _
    | candidates =>
      obtain ⟨-, rfl⟩ := Prod.mk.inj (Option.some.inj hans)
      exact Lent.refl _
    | commitKey key =>
      refine ⟨rfl, Or.inr ⟨.key key auth.policy.remoteId, ?_⟩⟩
      exact (congrArg Prod.snd (Option.some.inj hans)).symm
    | commitPin =>
      refine ⟨rfl, Or.inr ⟨.pin auth.policy.remoteId, ?_⟩⟩
      exact (congrArg Prod.snd (Option.some.inj hans)).symm
    | _ => cases hans

/-- What holds of an authentication under way: it follows its program, its host admitted only by
policy, and granted claims are held. -/
structure Inv (program : Handshake (Option PublicKey)) (policy : Policy) (claim : PairClaim)
    (hist : List HandshakeEvt) (prog : Handshake (Option PublicKey)) : Prop where
  follows : Prog.Follows program hist prog
  admitted : ∀ key, ⟨.admitKey key, .ok ()⟩ ∈ hist → ∃ now, policy.admits now key = .ok ()
  committed : ∀ key, ⟨.commitKey key, true⟩ ∈ hist → ∃ c, claim.peer = some c ∧
    c.applicationKey = some key ∧ c.nodeId = some policy.remoteId
  committedPin : ⟨.commitPin, true⟩ ∈ hist → ∃ c, claim.peer = some c ∧
    c.nodeId = some policy.remoteId
  snapshot : ∀ passwords : List PinPassword, ⟨.candidates, passwords⟩ ∈ hist →
    ∃ pins, passwords = policy.snapshot pins

/-- An authentication that has not begun is sound. -/
lemma Inv.start (program : Handshake (Option PublicKey)) (policy : Policy) (claim : PairClaim) :
    Inv program policy claim [] program where
  follows := .nil _
  admitted := by simp
  committed := by simp
  committedPin := by simp
  snapshot := by simp

/-- A claim that names a peer keeps naming it. -/
lemma commitKey_keeps {claim claim' : PairClaim} {key : PublicKey} {n : EndpointId} {b : Bool}
    {c : ClaimedPeer} (h : claim.commitKey key n = (b, claim')) (hc : claim.peer = some c)
    (hn : c.nodeId = some n) :
    ∃ c', claim'.peer = some c' ∧ c'.applicationKey = c.applicationKey ∧ c'.nodeId = some n := by
  cases b with
  | false => exact ⟨c, by rw [PairClaim.commitKey_false h, hc], rfl, hn⟩
  | true =>
    simp only [PairClaim.commitKey, hc] at h
    split_ifs at h with hk
    · cases (Prod.mk.inj h).1
    · obtain rfl := (Prod.mk.inj h).2
      exact ⟨_, rfl, rfl, rfl⟩

/-- A claim that has a holder is not changed by a PIN. -/
lemma commitPin_keeps {claim claim' : PairClaim} {n : EndpointId} {b : Bool} {c : ClaimedPeer}
    (h : claim.commitPin n = (b, claim')) (hc : claim.peer = some c) : claim' = claim := by
  simp only [PairClaim.commitPin, hc] at h
  split_ifs at h <;> exact (Prod.mk.inj h).2.symm

/-- **An authentication follows its program, and its host answers by policy.**

**Proof sketch.** The history grows by one event, which the program has asked for. An event of the
stream says nothing about the host. For each operation of the host its answer is the one that the
policy, or the claim, gives at this step. -/
lemma Inv.step {program : Handshake (Option PublicKey)} {auth auth' : Auth}
    {memory memory' : SessionMemory} {l : AuthLabel}
    (h : Inv program auth.policy memory.claim auth.hist auth.prog)
    (hstep : auth.step memory l = some (auth', memory')) :
    Inv program auth'.policy memory'.claim auth'.hist auth'.prog ∧ auth'.policy = auth.policy := by
  obtain ⟨o, k, a, hprog, rfl, hans⟩ := step_cases hstep
  refine ⟨?_, rfl⟩
  have hfollows : Prog.Follows program (auth.hist ++ [⟨o, a⟩]) (k a) := by
    have := h.follows
    rw [hprog] at this
    exact this.snoc a
  -- what the new event can be, for each of the host's own operations
  have hsplit : ∀ e : HandshakeEvt, e ∈ auth.hist ++ [⟨o, a⟩] ↔ e ∈ auth.hist ∨ e = ⟨o, a⟩ := by
    simp
  rcases hans with ⟨hnone, rfl⟩ | ⟨now, claim, hans, rfl⟩
  · constructor
    · exact hfollows
    · intro key hmem
      rcases (hsplit _).1 hmem with hmem | he
      · exact h.admitted key hmem
      · cases he
        cases hnone
    · intro key hmem
      rcases (hsplit _).1 hmem with hmem | he
      · exact h.committed key hmem
      · cases he
        cases hnone
    · intro hmem
      rcases (hsplit _).1 hmem with hmem | he
      · exact h.committedPin hmem
      · cases he
        cases hnone
    · intro passwords hmem
      rcases (hsplit _).1 hmem with hmem | he
      · exact h.snapshot passwords hmem
      · cases he
        cases hnone
  · -- a claim that was granted in this authentication is not taken away by its later questions
    have hkeeps : ∀ c, memory.claim.peer = some c → c.nodeId = some auth.policy.remoteId →
        ∃ c', claim.peer = some c' ∧ c'.applicationKey = c.applicationKey ∧
          c'.nodeId = some auth.policy.remoteId := by
      intro c hc hn
      cases o with
      | admitKey key =>
        obtain ⟨-, rfl⟩ := Prod.mk.inj (Option.some.inj hans)
        exact ⟨c, hc, rfl, hn⟩
      | candidates =>
        obtain ⟨-, rfl⟩ := Prod.mk.inj (Option.some.inj hans)
        exact ⟨c, hc, rfl, hn⟩
      | commitKey key => exact commitKey_keeps (Option.some.inj hans) hc hn
      | commitPin =>
        rw [commitPin_keeps (Option.some.inj hans) hc]
        exact ⟨c, hc, rfl, hn⟩
      | _ => cases hans
    constructor
    · exact hfollows
    · intro key hmem
      rcases (hsplit _).1 hmem with hmem | he
      · exact h.admitted key hmem
      · cases he
        exact ⟨now, (Prod.mk.inj (Option.some.inj hans)).1⟩
    · intro key hmem
      rcases (hsplit _).1 hmem with hmem | he
      · obtain ⟨c, hc, hk, hn⟩ := h.committed key hmem
        obtain ⟨c', hc', hk', hn'⟩ := hkeeps c hc hn
        exact ⟨c', hc', hk'.trans hk, hn'⟩
      · cases he
        exact PairClaim.commitKey_true (Option.some.inj hans)
    · intro hmem
      rcases (hsplit _).1 hmem with hmem | he
      · obtain ⟨c, hc, hn⟩ := h.committedPin hmem
        obtain ⟨c', hc', -, hn'⟩ := hkeeps c hc hn
        exact ⟨c', hc', hn'⟩
      · cases he
        exact PairClaim.commitPin_true (Option.some.inj hans)
    · intro passwords hmem
      rcases (hsplit _).1 hmem with hmem | he
      · exact h.snapshot passwords hmem
      · cases he
        exact ⟨memory.recentPins, (Prod.mk.inj (Option.some.inj hans)).1.symm⟩

/-! ## What a success has proved -/

/-- The history of a listener's stream holds a proof that verified under a key, over this device's
own nonce and the two endpoint ids. -/
def ListenerProved (C : Crypto) (identity : Identity) (remoteId ownId : EndpointId)
    (hist : List HandshakeEvt) (key : PublicKey) : Prop :=
  ∃ clientNonce nonce proof, KeyAuth.ProofVerified C identity clientNonce remoteId.toString
    ownId.toString hist key nonce proof

/-- The history of a dialer's stream holds a challenge that verified under a key, over this device's
own nonce and the two endpoint ids. -/
def DialerProved (C : Crypto) (identity : Identity) (remoteId ownId : EndpointId)
    (hist : List HandshakeEvt) (key : PublicKey) : Prop :=
  ∃ nonce challenge, KeyAuth.ChallengeVerified C identity key ownId.toString remoteId.toString hist
    nonce challenge

/-- A stream that was opened leaves one event. -/
lemma follows_sessionStream {h : List HandshakeEvt} {u : Unit}
    (hf : Prog.Follows sessionStream h (.ret u)) : h = [⟨.sessionStream, .ok ()⟩] := by
  obtain ⟨r, h', rfl, hrest⟩ := hf.of_call trivial
  rcases r with e | u'
  · cases (Prog.Follows.of_fail hrest).2
  · rw [(Prog.Follows.of_ret hrest).1]

/-- A request that was read leaves one event, with a frame that decodes to it.

**Proof sketch.** The program reads one frame and decodes it; a read that fails, or a frame that
does not decode, ends it without a request. -/
lemma follows_readAuthRequest {h : List HandshakeEvt} {request : AuthRequest}
    (hf : Prog.Follows readAuthRequest h (.ret request)) :
    ∃ frame : Frame, h = [⟨.read MAX_CONTROL_MESSAGE_SIZE, .ok frame⟩] ∧
      decodeAuthRequest frame = .ok request := by
  obtain ⟨r, h', rfl, hrest⟩ := hf.of_call trivial
  rcases r with e | frame
  · cases (Prog.Follows.of_fail hrest).2
  cases hd : decodeAuthRequest frame with
  | error e =>
    have hfail : Prog.Follows (.fail (e.context "Invalid auth request") : Handshake AuthRequest) h'
        (.ret request) := by
      rw [show Except.ok frame = (.ok frame : Except Error Frame) from rfl, withContext_ok] at hrest
      simpa [hd, withContext, Except.mapError, bind, Except.bind] using hrest
    cases hfail.of_fail.2
  | ok request' =>
    have hret : Prog.Follows (.ret request' : Handshake AuthRequest) h' (.ret request) := by
      simpa [hd, withContext, Except.mapError, bind, Except.bind] using hrest
    obtain ⟨rfl, he⟩ := hret.of_ret
    cases he
    exact ⟨frame, rfl, hd⟩

variable {C : Crypto}

/-- A key-auth half that returned a key verified its proof. -/
lemma listenerProved_of_follows {identity : Identity} {publicKey nonce : String}
    {remoteId ownId : EndpointId} {h : List HandshakeEvt} {key : PublicKey}
    (hf : Prog.Follows (KeyAuth.listenerHandshake C identity publicKey nonce remoteId.toString
      ownId.toString) h (.ret key)) :
    ListenerProved C identity remoteId ownId h key ∧ ⟨.commitKey key, true⟩ ∈ h := by
  have hsafe := KeyAuth.listener_safe C identity publicKey nonce remoteId.toString ownId.toString
  have hcommit : ⟨.commitKey key, true⟩ ∈ h := hsafe.returned hf (fun _ _ => trivial) key rfl
  obtain ⟨h₁, h₂, rfl⟩ := List.append_of_mem hcommit
  obtain ⟨-, own, proof, hv⟩ := hsafe.obligation hf fun _ _ => trivial
  obtain ⟨frame, hr, hdec⟩ := hv.received
  exact ⟨⟨nonce, own, proof, List.mem_append_left _ hv.admitted, List.mem_append_left _ hv.drawn,
    ⟨frame, List.mem_append_left _ hr, hdec⟩, hv.proved⟩, hcommit⟩

/-- What a listener has proved stays so as the history grows. -/
lemma ListenerProved.mono {identity : Identity} {remoteId ownId : EndpointId}
    {h h' : List HandshakeEvt} {key : PublicKey}
    (hp : ListenerProved C identity remoteId ownId h key)
    (hsub : ∀ e ∈ h, e ∈ h') : ListenerProved C identity remoteId ownId h' key := by
  obtain ⟨nonce, own, proof, h1, h2, ⟨frame, h3, h4⟩, h5⟩ := hp
  exact ⟨nonce, own, proof, hsub _ h1, hsub _ h2, ⟨frame, hsub _ h3, h4⟩, h5⟩

/-- **What a listener has proved when it returns a key**: the key is the one its session is for, it
is trusted with a card that was valid, its proof verified on this stream, and it holds the claim
from this connection's endpoint id.

**Proof sketch.** The history is taken apart along the program: the stream, the request, and the
branch of its kind. A PIN request returns no key, so the request was for a key, and the handshake of
the listener gives the rest. -/
theorem Inv.listener_key {keyAuth : Option KeyListener} {ownId : EndpointId} {policy : Policy}
    {claim : PairClaim} {hist : List HandshakeEvt} {key : PublicKey}
    (h : Inv (authAsListener C keyAuth policy.remoteId ownId) policy claim hist (.ret (some key)))
    (hpolicy : policy.keyAuth = keyAuth) :
    ∃ listener card now, keyAuth = some listener ∧ listener.identity.peer key = some card ∧
      card.isValidAt now = true ∧ key = listener.peerPublicKey ∧
      ListenerProved C listener.identity.identity policy.remoteId ownId hist key ∧
      ∃ c, claim.peer = some c ∧ c.applicationKey = some key ∧ c.nodeId = some policy.remoteId := by
  obtain ⟨u, h₁, h₂, rfl, -, hrest⟩ := Prog.Follows.of_bind h.follows
  obtain ⟨request, h₃, h₄, rfl, -, hbody⟩ := Prog.Follows.of_bind hrest
  cases request with
  | pin version pakes =>
    obtain ⟨passwords, h₅, h₆, rfl, -, hpin⟩ := Prog.Follows.of_bind hbody
    obtain ⟨u', h₇, h₈, rfl, -, hret⟩ := Prog.Follows.of_bind hpin
    cases hret.of_ret.2
  | key version publicKey nonce =>
    obtain ⟨listener, h₅, h₆, rfl, hl, hkey⟩ := Prog.Follows.of_bind hbody
    obtain ⟨key', h₇, h₈, rfl, hhand, hret⟩ := Prog.Follows.of_bind hkey
    cases hret.of_ret.2
    have hlistener : keyAuth = some listener := by
      cases keyAuth with
      | none => cases (Prog.Follows.of_fail hl).2
      | some l =>
        cases (Prog.Follows.of_ret hl).2
        rfl
    obtain ⟨hproved, hcommit⟩ := listenerProved_of_follows hhand
    have hsub : ∀ e ∈ h₇, e ∈ h₁ ++ (h₃ ++ (h₅ ++ (h₇ ++ h₈))) := fun e he => by simp [he]
    obtain ⟨_, _, _, hadm, -⟩ := hproved
    obtain ⟨now, hadmit⟩ := h.admitted key (hsub _ hadm)
    obtain ⟨l, card, hl', hcard, hpeer, hvalid⟩ := Policy.admit_ok hadmit
    obtain rfl : l = listener := by
      rw [hpolicy, hlistener] at hl'
      exact (Option.some.inj hl').symm
    refine ⟨l, card, now, hlistener, hcard, hvalid, hpeer, ?_, h.committed key (hsub _ hcommit)⟩
    exact (listenerProved_of_follows hhand).1.mono hsub

/-- **What a listener has proved when it returns without a key**: a slot that runs one of the PIN
passwords it honoured was confirmed, and the dialer holds the claim.

**Proof sketch.** The history is taken apart along the program, and a key request returns a key. A
PIN request has snapshotted the passwords, so the safety of the PIN handshake applies to what was
read and sent after that. -/
theorem Inv.listener_pin {keyAuth : Option KeyListener} {ownId : EndpointId} {policy : Policy}
    {claim : PairClaim} {hist : List HandshakeEvt}
    (h : Inv (authAsListener C keyAuth policy.remoteId ownId) policy claim hist (.ret none)) :
    ∃ pins slot, PinAuth.Verified C (policy.snapshot pins) policy.remoteId.toString ownId.toString
      hist slot ∧ ∃ c, claim.peer = some c ∧ c.nodeId = some policy.remoteId := by
  obtain ⟨u, h₁, h₂, rfl, hstream, hrest⟩ := Prog.Follows.of_bind h.follows
  obtain rfl := follows_sessionStream hstream
  obtain ⟨request, h₃, h₄, rfl, hread, hbody⟩ := Prog.Follows.of_bind hrest
  obtain ⟨frame, rfl, hdec⟩ := follows_readAuthRequest hread
  cases request with
  | key version publicKey nonce =>
    obtain ⟨listener, h₅, h₆, rfl, -, hkey⟩ := Prog.Follows.of_bind hbody
    obtain ⟨key', h₇, h₈, rfl, -, hret⟩ := Prog.Follows.of_bind hkey
    cases hret.of_ret.2
  | pin version pakes =>
    obtain ⟨passwords, h₅, h₆, rfl, hcand, hpin⟩ := Prog.Follows.of_bind hbody
    obtain ⟨u', h₇, h₈, rfl, hhand, hret⟩ := Prog.Follows.of_bind hpin
    obtain ⟨passwords', h₅', rfl, hret'⟩ := hcand.of_call trivial
    obtain ⟨rfl, he⟩ := Prog.Follows.of_ret hret'
    cases he
    obtain ⟨rfl, -⟩ := hret.of_ret
    obtain ⟨pins, rfl⟩ := h.snapshot passwords (by simp)
    have hopen : PinAuth.Opened frame [⟨.sessionStream, .ok ()⟩,
        ⟨.read MAX_CONTROL_MESSAGE_SIZE, .ok frame⟩, ⟨.candidates, policy.snapshot pins⟩] := by
      constructor <;> simp
    have hsafe := PinAuth.listenerHandshake_safe (C := C) (policy.snapshot pins)
      policy.remoteId.toString ownId.toString hopen hdec
    obtain ⟨slot, mac, hv, hcommit, -⟩ := (hsafe.sound hhand fun _ _ => trivial).2 rfl
    refine ⟨pins, slot, by simpa using hv, h.committedPin ?_⟩
    simpa using hcommit

/-- A host without PINs never accepts a dialer without a key. -/
lemma Inv.listener_not_pin {keyAuth : Option KeyListener} {ownId : EndpointId} {policy : Policy}
    {claim : PairClaim} {hist : List HandshakeEvt} (hpins : policy.pinCache = false) :
    ¬ Inv (authAsListener C keyAuth policy.remoteId ownId) policy claim hist (.ret none) := by
  intro h
  obtain ⟨pins, slot, hv, -⟩ := h.listener_pin
  have hnil : policy.snapshot pins = [] := by simp [Policy.snapshot, hpins]
  obtain ⟨-, pw, -, -, -, -, -, -, -, -, -, hcand, -⟩ := hv
  simp [hnil] at hcand

/-- **What a key-auth dialer has proved when it returns.**

**Proof sketch.** The program returns the key that it was called for. The rest is the safety of the
dialer's handshake: at its return the proof has been signed, and it was signed only once the
challenge had been checked. -/
theorem Inv.dialer_key {identity : Identity} {peer : PublicKey} {ownId : EndpointId}
    {policy : Policy} {claim : PairClaim} {hist : List HandshakeEvt} {r : Option PublicKey}
    (h : Inv (authAsDialerKey C identity peer policy.remoteId ownId) policy claim hist (.ret r)) :
    r = some peer ∧ DialerProved C identity policy.remoteId ownId hist peer := by
  obtain ⟨u, h₁, h₂, rfl, -, hrest⟩ := Prog.Follows.of_bind h.follows
  obtain ⟨u', h₃, h₄, rfl, hhand, hret⟩ := Prog.Follows.of_bind hrest
  obtain ⟨rfl, he⟩ := hret.of_ret
  cases he
  refine ⟨rfl, ?_⟩
  have hsafe := KeyAuth.dialer_safe C identity peer ownId.toString policy.remoteId.toString
  obtain ⟨m, s, hsign⟩ := hsafe.returned hhand (fun _ _ => trivial) rfl
  obtain ⟨k₁, k₂, rfl⟩ := List.append_of_mem hsign
  obtain ⟨-, nonce, challenge, hv, -⟩ := hsafe.obligation hhand fun _ _ => trivial
  obtain ⟨frame, hr, hdec⟩ := hv.received
  have hsub : ∀ e ∈ k₁, e ∈ h₁ ++ (k₁ ++ ⟨.signAuth m, s⟩ :: k₂ ++ []) := fun e he => by simp [he]
  exact ⟨nonce, challenge, hsub _ hv.drawn, ⟨frame, hsub _ hr, hdec⟩, hv.proved⟩

end Auth

/-! ## A joiner to try a host with -/

namespace Sample

/-- Primitives whose two sides agree, kept small enough to be run. The keys of the two sides are
equal if the passwords are, so that a handshake can be computed. -/
def plain : Crypto where
  parseKey _ := none
  verifyAuthSignature _ _ _ := .error (.msg "Invalid signature")
  deriveAuthKeyMaterial pin := .ok (.padded pin)
  pakeMsgA _ x := [4, UInt8.ofNat x]
  pakeMsgB _ y := [5, UInt8.ofNat y]
  pakeFinishA pw _ _ _ _ := .ok (pw.bytes.take 8)
  pakeFinishB pw _ _ _ _ := .ok (pw.bytes.take 8)
  hmac k m := k ++ m.take 20
  b64Encode b := String.ofList (b.map fun c => Char.ofNat (256 + c.toNat))
  b64Decode s := some (s.toList.map fun c => UInt8.ofNat (c.toNat - 256))

/-- The host, and a device that joins it. -/
def hostId : EndpointId := PinAuth.sampleId 1

/-- The node id of a joiner, -/
def joinerId : EndpointId := PinAuth.sampleId 2

/-- The PIN that is shown, and the password it stands for. -/
def pin : String := "ABCDEFGH"

/-- and the password that it shares with the host. -/
def password : PinPassword := .padded pin

/-- The joiner's opening request. -/
def request : Frame :=
  (AuthRequest.pinRequest (List.replicate PinAuth.PAKE_SLOTS
    (plain.b64Encode (plain.pakeMsgA password 0)))).toFrame

/-- The host's challenge, when all its scalars are zero. -/
def challenge : Frame :=
  (PinChallenge.new (List.replicate PinAuth.PAKE_SLOTS
    (plain.b64Encode (plain.pakeMsgB password 0)))).toFrame

/-- The joiner's response, which confirms the first slot. Its second slot has no confirmation, as
the joiner knows one PIN only. -/
def response : Frame :=
  let ids := PinAuth.pakeIdentities 0 joinerId.toString hostId.toString
  let mac := match plain.pakeFinishA password ids.1 ids.2 0 (plain.pakeMsgB password 0) with
    | .ok key => PinAuth.confirmMac plain key .dialer 0 joinerId.toString hostId.toString
    | .error _ => []
  (PinResponse.new [plain.b64Encode mac, ""]).toFrame

/-- The host's handshake with the joiner until its first slot runs the PIN, -/
def joins : List AuthLabel :=
  [.io ⟨.sessionStream, .ok ()⟩, .io ⟨.read MAX_CONTROL_MESSAGE_SIZE, .ok request⟩, .policy 0]

/-- and from there until the claim was granted. -/
def proves : List AuthLabel :=
  [.io ⟨.randomScalar, (0 : ℕ)⟩, .io ⟨.randomPassword, password⟩, .io ⟨.randomScalar, (0 : ℕ)⟩,
    .io ⟨.write challenge, .ok ()⟩, .io ⟨.read MAX_CONTROL_MESSAGE_SIZE, .ok response⟩, .policy 0]

end Sample

end Duocb
