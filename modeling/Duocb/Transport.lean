import Duocb.Card.Minting
import Duocb.Net.Auth
import Duocb.Stream

set_option relaxedAutoImplicit false
set_option autoImplicit false

/-!
# Authenticating over any transport

What a transport is plugged into: either side takes the one stream of its session and runs its half
of the application-key handshake on it, with the two transport ids as it sees them. The ids are
signed into the transcripts, so the two sides have to see the same ones.

Signatures are idealised: one that a device has made checks under the key and the transcript it was
made for, and under no others.

## Main definitions

* `Duocb.authenticateDialer`, `Duocb.authenticateListener` — the two programs.
* `Duocb.Signing` — ideal signatures.
* `Duocb.Acquainted` — the condition under which the two sides accept each other.

## Main results

* `Duocb.authenticate_outcome` — what a complete joint run ends in.
* `Duocb.authenticate_completes` — every joint run can be completed.
* `Duocb.authenticate_agrees` — both, for any two views of the transport's ids.
-/

namespace Duocb

/-! ## The programs -/

section Programs

variable (C : Crypto)

/-- The key and the nonce of a request, which has to be one of the application-key method. -/
def keyRequestFields : AuthRequest → Handshake (String × String)
  | .key _ publicKey nonce => return (publicKey, nonce)
  | .pin _ _ => .fail (.msg "dialer asked for PIN authentication on a clipboard listener")

/-- Read the dialer's opening request. -/
def readKeyRequest : Handshake (String × String) := do
  keyRequestFields (← readAuthRequest)

/-- Authenticate as the dialer. -/
def authenticateDialer (identity : Identity) (expectedPeer : PublicKey) (localId peerId : String) :
    Handshake Unit := do
  sessionStream
  KeyAuth.dialerHandshake C identity expectedPeer localId peerId

/-- Authenticate as the listener, and return the dialer's proven application key. -/
def authenticateListener (identity : Identity) (localId peerId : String) : Handshake PublicKey := do
  sessionStream
  let fields ← readKeyRequest
  KeyAuth.listenerHandshake C identity fields.1 fields.2 peerId localId

end Programs

/-- Ideal signatures: what a key has signed checks under that key and for that transcript only. A
transcript of up to a kibibyte can be signed, and its proof is small. Keys are read back from their
text. -/
structure Signing (C : Crypto) where
  Signs : PublicKey → Bytes → String → Prop
  exists_sign : ∀ K m, m.length ≤ 1024 → ∃ s, Signs K m s
  verify : ∀ {K m s}, Signs K m s → ∀ K' m',
    C.verifyAuthSignature K' m' s = .ok () ↔ K' = K ∧ m' = m
  parse : ∀ K : PublicKey, C.parseKey K.toHex = some K
  small : ∀ {K m s}, Signs K m s → (jsonString s).utf8ByteSize ≤ 4096

/-- What a device is answered off the stream: its stream is there, its nonces are small, and it
signs with its own key. -/
def DeviceAns {C : Crypto} (S : Signing C) (me : PublicKey) : (o : Op) → Ans o → Prop
  | .sessionStream, (r : Except Error Unit) => r = .ok ()
  | .randomNonce, (n : String) => (jsonString n).utf8ByteSize ≤ 64
  | .signAuth m, (s : String) => m.length ≤ 1024 → S.Signs me m s
  | _, _ => True

/-- What a listening device is answered: its caller decides which key it admits, and its commit
always succeeds. -/
def HostAns {C : Crypto} (S : Signing C) (me : PublicKey) (admits : PublicKey → Except Error Unit) :
    (o : Op) → Ans o → Prop
  | .admitKey K, (r : Except Error Unit) => r = admits K
  | .commitKey _, (b : Bool) => b = true
  | o, a => DeviceAns S me o a

/-- What a side was answered that writes to a faithful stream and is answered by `A` off it. -/
def Told (A : (o : Op) → Ans o → Prop) : (o : Op) → Ans o → Prop
  | .write _, (r : Except Error Unit) => r = .ok ()
  | .read _, _ => True
  | o, a => A o a

namespace Joint

variable {α β : Type} {A B : (o : Op) → Ans o → Prop} {p p' : Handshake α} {q q' : Handshake β}
  {h h' : List HandshakeEvt}

/-- What the left side of a joint run has been answered. -/
lemma told_left (hJ : Joint A B p q h p' h' q') : ∀ e ∈ h, Told A e.1 e.2 := by
  intro e he
  obtain ⟨h₁, h₂, hh⟩ := List.append_of_mem he
  obtain ⟨_, _, _, _, hans⟩ := hJ.answered_left h₁ h₂ e hh
  obtain ⟨o, a⟩ := e
  cases o with
  | read max => trivial
  | _ => exact hans

/-- A read for which the other side never writes anything fails. -/
lemma starved_left (hJ : Joint A B p q h p' h' q') (h₁ h₂ : List HandshakeEvt) {max : ℕ}
    {r : Except Error Frame} (hh : h = h₁ ++ ⟨.read max, r⟩ :: h₂)
    (hw : (writes h')[readCount h₁]? = none) : ∃ e, r = .error e := by
  cases r with
  | error e => exact ⟨e, rfl⟩
  | ok frame =>
    rw [hJ.read_ok_left h₁ h₂ hh] at hw
    cases hw

end Joint

/-! ## The frames fit -/

/-- All frames of the exchange fit in a control frame.

**Proof sketch.** The sizes of the parts of each frame are added up. -/
lemma keyFrames_fit (K : PublicKey) {nonce proof : String}
    (hn : (jsonString nonce).utf8ByteSize ≤ 64) (hp : (jsonString proof).utf8ByteSize ≤ 4096) :
    (AuthRequest.keyRequest K.toHex nonce).toFrame.size ≤ MAX_CONTROL_MESSAGE_SIZE ∧
    (KeyChallenge.new K.toHex nonce proof).toFrame.size ≤ MAX_CONTROL_MESSAGE_SIZE ∧
    (KeyProof.new proof).toFrame.size ≤ MAX_CONTROL_MESSAGE_SIZE := by
  have hK : (jsonString K.toHex).utf8ByteSize = 66 := by
    rw [PublicKey.toHex, jsonString_toHex, K.length_eq]
  have hm : (jsonString "method").utf8ByteSize = 8 := by decide
  have hk : (jsonString "Key").utf8ByteSize = 5 := by decide
  have hv : (jsonString "version").utf8ByteSize = 9 := by decide
  have hpk : (jsonString "public_key").utf8ByteSize = 12 := by decide
  have hno : (jsonString "nonce").utf8ByteSize = 7 := by decide
  have hpr : (jsonString "proof").utf8ByteSize = 7 := by decide
  have hnum : (toString DUOCB_PROTO_VERSION).utf8ByteSize = 1 := by decide
  have h1 : "\x7b".utf8ByteSize = 1 := by decide
  have h2 : "\x7d".utf8ByteSize = 1 := by decide
  have h3 : ",".utf8ByteSize = 1 := by decide
  have h4 : ":".utf8ByteSize = 1 := by decide
  simp only [Frame.size, Frame.render, AuthRequest.toFrame, AuthRequest.keyRequest,
    KeyChallenge.toFrame, KeyChallenge.new, KeyProof.toFrame, KeyProof.new, List.map, renderField,
    Value.render, commaSep, String.utf8ByteSize_append, hK, hm, hk, hv, hpk, hno, hpr, hnum, h1, h2,
    h3, h4, MAX_CONTROL_MESSAGE_SIZE]
  omega

/-- A key request with a nonce of the usual length fits in a control message. -/
lemma request_fits {K : PublicKey} {nonce : String} (hn : (jsonString nonce).utf8ByteSize ≤ 64) :
    (AuthRequest.keyRequest K.toHex nonce).toFrame.size ≤ MAX_CONTROL_MESSAGE_SIZE :=
  (keyFrames_fit K hn (Nat.le_trans hn (by decide))).1

/-- So does a key challenge with a signature of the usual length, -/
lemma challenge_fits {K : PublicKey} {nonce proof : String}
    (hn : (jsonString nonce).utf8ByteSize ≤ 64) (hp : (jsonString proof).utf8ByteSize ≤ 4096) :
    (KeyChallenge.new K.toHex nonce proof).toFrame.size ≤ MAX_CONTROL_MESSAGE_SIZE :=
  (keyFrames_fit K hn hp).2.1

/-- and so does a key proof. -/
lemma proof_fits {proof : String} (hp : (jsonString proof).utf8ByteSize ≤ 4096) :
    (KeyProof.new proof).toFrame.size ≤ MAX_CONTROL_MESSAGE_SIZE :=
  (keyFrames_fit (.filled 0) (show (jsonString "").utf8ByteSize ≤ 64 by decide) hp).2.2

/-- A transcript of small texts can be signed. -/
lemma authTranscript_short {role nonce own d l : String} {ck sk : PublicKey}
    (hrole : role.utf8ByteSize ≤ 8) (hn : (jsonString nonce).utf8ByteSize ≤ 64)
    (ho : (jsonString own).utf8ByteSize ≤ 64) (hd : d.utf8ByteSize ≤ 256)
    (hl : l.utf8ByteSize ≤ 256) :
    (KeyAuth.authTranscript role ck sk nonce own d l).length ≤ 1024 := by
  have hn' := utf8ByteSize_le_jsonString nonce
  have ho' := utf8ByteSize_le_jsonString own
  simp only [KeyAuth.authTranscript, KeyAuth.field, KeyAuth.be16, KeyAuth.be32, List.length_append,
    List.length_cons, List.length_nil, length_utf8, ck.length_eq, sk.length_eq]
  omega

/-- A verdict without a reason fits in a control message. -/
lemma accept_small : AuthResponse.accept.toFrame.size ≤ MAX_CONTROL_MESSAGE_SIZE := by
  decide +kernel

/-! ## One operation, followed to the end -/

section Steps

variable {α β : Type} {h : List HandshakeEvt} {q : Handshake α}

/-- A program that begins by opening the stream and has ended has tried it, and went on if there is
a stream. -/
lemma ended_sessionStream {f : Unit → Handshake α} (hf : (sessionStream >>= f).Follows h q)
    (hq : q.Ended) : ∃ (r : Except Error Unit) (h' : _), h = ⟨.sessionStream, r⟩ :: h' ∧
      (r = .ok () → (f ()).Follows h' q) := by
  obtain ⟨r, h', rfl, hrest⟩ := hf.of_call hq
  refine ⟨r, h', rfl, ?_⟩
  intro hr
  subst hr
  exact hrest

/-- A program that begins with a nonce and has ended has drawn one, and ended behind it. -/
lemma ended_randomNonce {f : String → Handshake α} (hf : (randomNonce >>= f).Follows h q)
    (hq : q.Ended) : ∃ n h', h = ⟨.randomNonce, n⟩ :: h' ∧ (f n).Follows h' q :=
  hf.of_call hq

/-- A program that begins with a signature and has ended got one, and ended behind it. -/
lemma ended_signAuth {m : Bytes} {f : String → Handshake α} (hf : (signAuth m >>= f).Follows h q)
    (hq : q.Ended) : ∃ s h', h = ⟨.signAuth m, s⟩ :: h' ∧ (f s).Follows h' q :=
  hf.of_call hq

/-- A program that begins with a key commit and has ended got an answer, and ended behind it. -/
lemma ended_commitKey {K : PublicKey} {f : Bool → Handshake α}
    (hf : (commitKey K >>= f).Follows h q) (hq : q.Ended) :
    ∃ b h', h = ⟨.commitKey K, b⟩ :: h' ∧ (f b).Follows h' q :=
  hf.of_call hq

/-- A program that begins by asking the policy and has ended got an answer: it went on if the key is
admitted, and failed with the error of the policy otherwise. -/
lemma ended_admitKey {K : PublicKey} {f : Unit → Handshake α}
    (hf : (admitKey K >>= f).Follows h q) (hq : q.Ended) :
    ∃ (r : Except Error Unit) (h' : _), h = ⟨.admitKey K, r⟩ :: h' ∧
      (r = .ok () → (f ()).Follows h' q) ∧ ∀ e, r = .error e → h' = [] ∧ q = .fail e := by
  obtain ⟨r, h', rfl, hrest⟩ := hf.of_call hq
  refine ⟨r, h', rfl, ?_, ?_⟩
  · intro hr
    subst hr
    exact hrest
  · intro e hr
    subst hr
    exact hrest.of_fail

/-- A check that fails is the end. -/
lemma failed_ofExcept {x : Except Error β} {e : Error} {f : β → Handshake α}
    (hf : (Prog.ofExcept x >>= f).Follows h q) (hx : x = .error e) : h = [] ∧ q = .fail e := by
  subst hx
  exact hf.of_fail

/-- A check that fails ends the program. -/
lemma failed_ensure {c : Bool} {e : Error} {f : Unit → Handshake α}
    (hf : (ensure c e >>= f).Follows h q) (hc : c = false) : h = [] ∧ q = .fail e := by
  subst hc
  exact hf.of_fail

end Steps

/-! ## The dialer's turns -/

section Dialer

variable (C : Crypto) (me : Identity) (peer : PublicKey) (d l : String)

/-- The dialer's wait for the verdict. A rejection ends it with the reason that the listener gave.
-/
def dialerVerdict : Handshake Unit := do
  let responseBytes ← readLengthPrefixed MAX_CONTROL_MESSAGE_SIZE
  let response ← .ofExcept
    (withContext (decodeAuthResponse responseBytes) "invalid key-auth response")
  ensure response.accepted
    (.msg ("authentication rejected: " ++ response.reason.getD "unknown reason"))

/-- The dialer's check of a challenge, and its own proof. The key must be that of the peer before
its signature is checked, and only then does the dialer sign. -/
def dialerProve (nonce : String) (serverKey : PublicKey) (theirs sl : String) : Handshake Unit := do
  ensure (serverKey = peer) (.msg "listener application key does not match the selected peer")
  .ofExcept (C.verifyAuthSignature serverKey
    (KeyAuth.authTranscript "listener" me.publicKey serverKey nonce theirs d l) sl)
  let proof ← signAuth
    (KeyAuth.authTranscript "dialer" me.publicKey serverKey nonce theirs d l)
  writeFrame (← .ofExcept (encodeKeyProof (.new proof)))
  dialerVerdict

/-- The dialer's wait for the challenge. The challenge must be a message of its kind, with a key in
it. -/
def dialerAwait (nonce : String) : Handshake Unit := do
  let challengeBytes ← readLengthPrefixed MAX_CONTROL_MESSAGE_SIZE
  let challenge ← .ofExcept
    (withContext (decodeKeyChallenge challengeBytes) "invalid key-auth challenge")
  let serverKey ← .ofExcept (match C.parseKey challenge.publicKey with
    | some k => .ok k
    | none => .error (.msg "listener supplied an invalid application key"))
  dialerProve C me peer d l nonce serverKey challenge.nonce challenge.proof

/-- The dialer opens the stream, sends a fresh nonce beside its key, and waits for the challenge. -/
lemma authenticateDialer_eq : authenticateDialer C me peer d l = (do
    sessionStream
    let nonce ← randomNonce
    writeFrame (← .ofExcept (encodeAuthRequest (.keyRequest me.publicKey.toHex nonce)))
    dialerAwait C me peer d l nonce) := rfl

variable {C} {me} {peer} {d} {l} {S : Signing C} {h : List HandshakeEvt} {p : Handshake Unit}

/-- **The dialer's first turn**: its request.

**Proof sketch.** The program is followed operation by operation. Each answer is one that the device
gives, and the request is small enough to be sent. -/
lemma dialer_requests (hA : ∀ e ∈ h, Told (DeviceAns S me.publicKey) e.1 e.2)
    (hf : (authenticateDialer C me peer d l).Follows h p) (hp : p.Ended) :
    ∃ nonce h₁, (jsonString nonce).utf8ByteSize ≤ 64 ∧
      h = ⟨.sessionStream, .ok ()⟩ :: ⟨.randomNonce, nonce⟩ ::
        ⟨.write (AuthRequest.keyRequest me.publicKey.toHex nonce).toFrame, .ok ()⟩ :: h₁ ∧
      (dialerAwait C me peer d l nonce).Follows h₁ p := by
  rw [authenticateDialer_eq] at hf
  obtain ⟨r, h₁, rfl, hopen⟩ := ended_sessionStream hf hp
  obtain ⟨(hr : r = .ok ()), hA₁⟩ := List.forall_mem_cons.1 hA
  subst hr
  obtain ⟨nonce, h₂, rfl, hdraw⟩ := ended_randomNonce (hopen rfl) hp
  obtain ⟨(hn : (jsonString nonce).utf8ByteSize ≤ 64), hA₂⟩ := List.forall_mem_cons.1 hA₁
  have henc : encodeAuthRequest (.keyRequest me.publicKey.toHex nonce) =
      .ok (AuthRequest.keyRequest me.publicKey.toHex nonce).toFrame :=
    encodeLengthPrefixed_ok.2 ⟨rfl, request_fits hn⟩
  simp only [henc, Prog.ofExcept_ok, Prog.ret_bind] at hdraw
  obtain ⟨a, h₃, rfl, hrest⟩ := ended_writeFrame hdraw hp
  obtain ⟨(ha : a = .ok ()), -⟩ := List.forall_mem_cons.1 hA₂
  subst ha
  exact ⟨nonce, h₃, hn, rfl, hrest rfl⟩

/-- **The dialer's second turn** begins with the challenge. -/
lemma dialer_awaits {nonce : String} (hf : (dialerAwait C me peer d l nonce).Follows h p)
    (hp : p.Ended) : ∃ (r : Except Error Frame) (h₁ : List HandshakeEvt),
      h = ⟨.read MAX_CONTROL_MESSAGE_SIZE, r⟩ :: h₁ ∧
      (∀ e, r = .error e → h₁ = [] ∧ p = .fail e) ∧
      ∀ K theirs sl, C.parseKey K.toHex = some K →
        r = .ok (KeyChallenge.new K.toHex theirs sl).toFrame →
        (dialerProve C me peer d l nonce K theirs sl).Follows h₁ p := by
  obtain ⟨r, h₁, rfl, hok, herr⟩ := ended_readLengthPrefixed hf hp
  refine ⟨r, h₁, rfl, herr, ?_⟩
  intro K theirs sl hparse hr
  have hdec := followed_ofExcept (b := KeyChallenge.new K.toHex theirs sl) (hok _ hr)
    (by rw [decodeKeyChallenge_toFrame]; rfl)
  exact followed_ofExcept (b := K) hdec (by simp [KeyChallenge.new, hparse])

/-- It goes on only if the challenge is from the expected peer and its proof checks.

**Proof sketch.** The two checks pass, so that the dialer signs. The signature is one that the
device gives, and the proof is small enough to be sent. -/
lemma dialer_proves {nonce theirs sl : String} {K : PublicKey}
    (hA : ∀ e ∈ h, Told (DeviceAns S me.publicKey) e.1 e.2)
    (hf : (dialerProve C me peer d l nonce K theirs sl).Follows h p) (hp : p.Ended)
    (hshort : (KeyAuth.authTranscript "dialer" me.publicKey K nonce theirs d l).length ≤ 1024)
    (hpeer : K = peer) (hver : C.verifyAuthSignature K
      (KeyAuth.authTranscript "listener" me.publicKey K nonce theirs d l) sl = .ok ()) :
    ∃ s h₁, S.Signs me.publicKey
        (KeyAuth.authTranscript "dialer" me.publicKey K nonce theirs d l) s ∧
      h = ⟨.signAuth (KeyAuth.authTranscript "dialer" me.publicKey K nonce theirs d l), s⟩ ::
        ⟨.write (KeyProof.new s).toFrame, .ok ()⟩ :: h₁ ∧ dialerVerdict.Follows h₁ p := by
  have hproof := followed_ofExcept (followed_ensure hf (decide_eq_true hpeer)) hver
  obtain ⟨s, h₁, rfl, hsign⟩ := ended_signAuth hproof hp
  obtain ⟨hsigns, hA₁⟩ := List.forall_mem_cons.1 hA
  have hs : S.Signs me.publicKey _ s := hsigns hshort
  have henc : encodeKeyProof (.new s) = .ok (KeyProof.new s).toFrame :=
    encodeLengthPrefixed_ok.2 ⟨rfl, proof_fits (S.small hs)⟩
  simp only [henc, Prog.ofExcept_ok, Prog.ret_bind] at hsign
  obtain ⟨a, h₂, rfl, hrest⟩ := ended_writeFrame hsign hp
  obtain ⟨(ha : a = .ok ()), -⟩ := List.forall_mem_cons.1 hA₁
  subst ha
  exact ⟨s, h₂, hs, rfl, hrest rfl⟩

/-- A dialer refuses a challenge that names another key, or whose signature does not check.

**Proof sketch.** By which of the two checks fails; either way the program ends before its next
operation. -/
lemma dialer_refuses {nonce theirs sl : String} {K : PublicKey}
    (hf : (dialerProve C me peer d l nonce K theirs sl).Follows h p)
    (hno : ¬ (K = peer ∧ C.verifyAuthSignature K
      (KeyAuth.authTranscript "listener" me.publicKey K nonce theirs d l) sl = .ok ())) :
    h = [] ∧ ∃ e, p = .fail e := by
  by_cases hpeer : K = peer
  · have hproof := followed_ensure hf (decide_eq_true hpeer)
    cases hver : C.verifyAuthSignature K
        (KeyAuth.authTranscript "listener" me.publicKey K nonce theirs d l) sl with
    | error e =>
      obtain ⟨hh, hp⟩ := failed_ofExcept hproof hver
      exact ⟨hh, e, hp⟩
    | ok u => exact absurd ⟨hpeer, hver⟩ hno
  · obtain ⟨hh, hp⟩ := failed_ensure hf (decide_eq_false hpeer)
    exact ⟨hh, _, hp⟩

/-- **The dialer's last turn**: the verdict. -/
lemma dialer_concludes (hf : dialerVerdict.Follows h p) (hp : p.Ended) :
    ∃ (r : Except Error Frame) (h₁ : List HandshakeEvt),
      h = ⟨.read MAX_CONTROL_MESSAGE_SIZE, r⟩ :: h₁ ∧
      (∀ e, r = .error e → p = .fail e) ∧ (r = .ok AuthResponse.accept.toFrame → p = .ret ()) := by
  obtain ⟨r, h₁, rfl, hok, herr⟩ := ended_readLengthPrefixed hf hp
  refine ⟨r, h₁, rfl, fun e he => (herr e he).2, ?_⟩
  intro hr
  have hresponse := followed_ofExcept (b := .accept) (hok _ hr)
    (by rw [decodeAuthResponse_accept]; rfl)
  exact hresponse.of_ret.2

end Dialer

/-! ## The listener's turns -/

section Listener

variable (C : Crypto) (me : Identity) (K : PublicKey) (nonce d l : String)

/-- The listener's check of a proof, and its verdict. The proof is checked before the claim is asked
for, and the acceptance is written only if the claim was granted. -/
def listenerCommit (own sd : String) : Handshake PublicKey := do
  .ofExcept (C.verifyAuthSignature K
    (KeyAuth.authTranscript "dialer" K me.publicKey nonce own d l) sd)
  let committed ← commitKey K
  ensure committed (.msg "another application identity paired first")
  writeFrame (← .ofExcept (encodeAuthResponse .accept))
  return K

/-- The listener's wait for the dialer's proof. -/
def listenerVerdict (own : String) : Handshake PublicKey := do
  let proofBytes ← readLengthPrefixed MAX_CONTROL_MESSAGE_SIZE
  let proof ← .ofExcept (withContext (decodeKeyProof proofBytes) "invalid dialer key proof")
  listenerCommit C me K nonce d l own proof.proof

/-- The listener's challenge to a key it has admitted. -/
def listenerChallenge : Handshake PublicKey := do
  let own ← randomNonce
  let proof ← signAuth (KeyAuth.authTranscript "listener" K me.publicKey nonce own d l)
  writeFrame (← .ofExcept (encodeKeyChallenge (.new me.publicKey.toHex own proof)))
  listenerVerdict C me K nonce d l own

/-- The listener reads the key of the request, asks the policy, and answers with a challenge. -/
lemma listenerHandshake_eq (publicKey : String) :
    KeyAuth.listenerHandshake C me publicKey nonce d l = (do
      let clientKey ← .ofExcept (match C.parseKey publicKey with
        | some k => .ok k
        | none => .error (.msg "dialer application key is invalid"))
      admitKey clientKey
      listenerChallenge C me clientKey nonce d l) := rfl

/-- What a listener does with the answer to its first read. -/
def listenerRequest (r : Except Error Frame) : Handshake PublicKey :=
  (Prog.ofExcept (withContext r "Failed to read auth request" >>= fun requestBytes =>
      withContext (decodeAuthRequest requestBytes) "Invalid auth request") >>= keyRequestFields) >>=
    fun fields => KeyAuth.listenerHandshake C me fields.1 fields.2 d l

/-- The listener opens the stream, and waits for the request. -/
lemma authenticateListener_eq : authenticateListener C me l d = (do
    sessionStream
    Prog.call (.read MAX_CONTROL_MESSAGE_SIZE) (listenerRequest C me d l)) := rfl

/-- A request for a key leads to the key handshake, with the key and the nonce of the request. -/
lemma listenerRequest_key (publicKey : String) :
    listenerRequest C me d l (.ok (AuthRequest.keyRequest publicKey nonce).toFrame) =
      KeyAuth.listenerHandshake C me publicKey nonce d l := by
  have hdec : (withContext (.ok (AuthRequest.keyRequest publicKey nonce).toFrame)
      "Failed to read auth request" >>= fun requestBytes =>
        withContext (decodeAuthRequest requestBytes) "Invalid auth request") =
      .ok (AuthRequest.keyRequest publicKey nonce) := by
    show withContext (decodeAuthRequest (AuthRequest.keyRequest publicKey nonce).toFrame)
      "Invalid auth request" = _
    rw [decodeAuthRequest_key]
    rfl
  rw [listenerRequest, hdec]
  rfl

variable {C} {me} {K} {nonce} {d} {l} {S : Signing C} {admits : PublicKey → Except Error Unit}
  {h : List HandshakeEvt} {q : Handshake PublicKey}

/-- **The listener's first turn**: it reads the request, and asks whether its key is admitted.

**Proof sketch.** The program is followed operation by operation, up to the answer of the host. -/
lemma listener_admits (hA : ∀ e ∈ h, Told (HostAns S me.publicKey admits) e.1 e.2)
    (hf : (authenticateListener C me l d).Follows h q) (hq : q.Ended) :
    ∃ (r : Except Error Frame) (h₁ : List HandshakeEvt),
      h = ⟨.sessionStream, .ok ()⟩ :: ⟨.read MAX_CONTROL_MESSAGE_SIZE, r⟩ :: h₁ ∧
      ∀ K nonce, r = .ok (AuthRequest.keyRequest K.toHex nonce).toFrame →
        ∃ h₂, h₁ = ⟨.admitKey K, admits K⟩ :: h₂ ∧
          (admits K = .ok () → (listenerChallenge C me K nonce d l).Follows h₂ q) ∧
          ∀ e, admits K = .error e → h₂ = [] ∧ q = .fail e := by
  rw [authenticateListener_eq] at hf
  obtain ⟨r₀, h₁, rfl, hopen⟩ := ended_sessionStream hf hq
  obtain ⟨(hr₀ : r₀ = .ok ()), hA₁⟩ := List.forall_mem_cons.1 hA
  subst hr₀
  obtain ⟨r, h₂, rfl, hread⟩ := (hopen rfl).of_call hq
  obtain ⟨-, hA₂⟩ := List.forall_mem_cons.1 hA₁
  refine ⟨r, h₂, rfl, ?_⟩
  intro K nonce hr
  subst hr
  rw [listenerRequest_key] at hread
  have hkey := hread
  rw [listenerHandshake_eq] at hkey
  obtain ⟨a, h₃, rfl, hok, herr⟩ := ended_admitKey
    (followed_ofExcept (b := K) hkey (by simp [S.parse])) hq
  obtain ⟨(ha : a = admits K), -⟩ := List.forall_mem_cons.1 hA₂
  subst ha
  exact ⟨h₃, rfl, hok, herr⟩

/-- **The listener's second turn**: its challenge.

**Proof sketch.** The program is followed operation by operation. The nonce and the signature are
those that the device gives, so that the challenge is small enough to be sent. -/
lemma listener_challenges (hA : ∀ e ∈ h, Told (HostAns S me.publicKey admits) e.1 e.2)
    (hf : (listenerChallenge C me K nonce d l).Follows h q) (hq : q.Ended)
    (hn : (jsonString nonce).utf8ByteSize ≤ 64) (hd : d.utf8ByteSize ≤ 256)
    (hl : l.utf8ByteSize ≤ 256) :
    ∃ own sl h₁, (jsonString own).utf8ByteSize ≤ 64 ∧ S.Signs me.publicKey
        (KeyAuth.authTranscript "listener" K me.publicKey nonce own d l) sl ∧
      h = ⟨.randomNonce, own⟩ ::
        ⟨.signAuth (KeyAuth.authTranscript "listener" K me.publicKey nonce own d l), sl⟩ ::
        ⟨.write (KeyChallenge.new me.publicKey.toHex own sl).toFrame, .ok ()⟩ :: h₁ ∧
      (listenerVerdict C me K nonce d l own).Follows h₁ q := by
  obtain ⟨own, h₁, rfl, hdraw⟩ := ended_randomNonce hf hq
  obtain ⟨(ho : (jsonString own).utf8ByteSize ≤ 64), hA₁⟩ := List.forall_mem_cons.1 hA
  obtain ⟨sl, h₂, rfl, hsign⟩ := ended_signAuth hdraw hq
  obtain ⟨hsigns, hA₂⟩ := List.forall_mem_cons.1 hA₁
  have hs : S.Signs me.publicKey _ sl := hsigns (authTranscript_short (by decide) hn ho hd hl)
  have henc : encodeKeyChallenge (.new me.publicKey.toHex own sl) =
      .ok (KeyChallenge.new me.publicKey.toHex own sl).toFrame :=
    encodeLengthPrefixed_ok.2 ⟨rfl, challenge_fits ho (S.small hs)⟩
  simp only [henc, Prog.ofExcept_ok, Prog.ret_bind] at hsign
  obtain ⟨a, h₃, rfl, hrest⟩ := ended_writeFrame hsign hq
  obtain ⟨(ha : a = .ok ()), -⟩ := List.forall_mem_cons.1 hA₂
  subst ha
  exact ⟨own, sl, h₃, ho, hs, rfl, hrest rfl⟩

/-- **The listener's last turn**: a proof that checks is accepted.

**Proof sketch.** The proof that was read is checked, and the claim is granted by the host. The
acceptance is small enough to be sent. -/
lemma listener_concludes {own : String}
    (hA : ∀ e ∈ h, Told (HostAns S me.publicKey admits) e.1 e.2)
    (hf : (listenerVerdict C me K nonce d l own).Follows h q) (hq : q.Ended) :
    ∃ (r : Except Error Frame) (h₁ : List HandshakeEvt),
      h = ⟨.read MAX_CONTROL_MESSAGE_SIZE, r⟩ :: h₁ ∧ (∀ e, r = .error e → q = .fail e) ∧
      ∀ s, r = .ok (KeyProof.new s).toFrame → C.verifyAuthSignature K
          (KeyAuth.authTranscript "dialer" K me.publicKey nonce own d l) s = .ok () →
        ∃ h₂, h₁ = ⟨.commitKey K, true⟩ :: ⟨.write AuthResponse.accept.toFrame, .ok ()⟩ :: h₂ ∧
          q = .ret K := by
  obtain ⟨r, h₁, rfl, hok, herr⟩ := ended_readLengthPrefixed hf hq
  obtain ⟨-, hA₁⟩ := List.forall_mem_cons.1 hA
  refine ⟨r, h₁, rfl, fun e he => (herr e he).2, ?_⟩
  intro s hr hver
  have hproof : (listenerCommit C me K nonce d l own s).Follows h₁ q :=
    followed_ofExcept (b := KeyProof.new s) (hok _ hr) (by rw [decodeKeyProof_toFrame]; rfl)
  simp only [listenerCommit, hver, Prog.ofExcept_ok, Prog.ret_bind] at hproof
  obtain ⟨b, h₂, rfl, hcommit⟩ := ended_commitKey hproof hq
  obtain ⟨(hb : b = true), hA₂⟩ := List.forall_mem_cons.1 hA₁
  subst hb
  have henc : encodeAuthResponse .accept = .ok AuthResponse.accept.toFrame :=
    encodeLengthPrefixed_ok.2 ⟨rfl, accept_small⟩
  have hwon := followed_ensure hcommit rfl
  simp only [henc, Prog.ofExcept_ok, Prog.ret_bind] at hwon
  obtain ⟨a, h₃, rfl, hlast⟩ := ended_writeFrame hwon hq
  obtain ⟨(ha : a = .ok ()), -⟩ := List.forall_mem_cons.1 hA₂
  subst ha
  exact ⟨h₃, rfl, (hlast rfl).of_ret.2⟩

end Listener

/-! ## The two sides against each other -/

section Against

/-- The condition under which the two sides accept each other: they call the two ends of the
transport by the same names, the dialer looks for this listener's key, and the listener's caller
admits the dialer's. -/
def Acquainted (me me' : Identity) (peer : PublicKey) (admits : PublicKey → Except Error Unit)
    (d l d' l' : String) : Prop :=
  d = d' ∧ l = l' ∧ me'.publicKey = peer ∧ admits me.publicKey = .ok ()

/-- What one joint run of the two programs is. -/
abbrev Authentication {C : Crypto} (S : Signing C) (me me' : Identity) (peer : PublicKey)
    (admits : PublicKey → Except Error Unit) (d l d' l' : String) :=
  Joint (DeviceAns S me.publicKey) (HostAns S me'.publicKey admits)
    (authenticateDialer C me peer d l) (authenticateListener C me' l' d')

variable {C : Crypto} {S : Signing C} {me me' : Identity} {peer : PublicKey}
  {admits : PublicKey → Except Error Unit} {d l d' l' : String}

/-- A proof checks exactly if the two sides name the ends of the transport alike.

**Proof sketch.** A signature checks exactly if it is of the same transcript, and a transcript
determines the ids that are in it. -/
lemma proof_checks {K : PublicKey} {role nonce own s : String} {ck sk : PublicKey}
    (hrole : role.utf8ByteSize ≤ 8) (hn : (jsonString nonce).utf8ByteSize ≤ 64)
    (ho : (jsonString own).utf8ByteSize ≤ 64) (hd : d.utf8ByteSize ≤ 256)
    (hl : l.utf8ByteSize ≤ 256) (hd' : d'.utf8ByteSize ≤ 256) (hl' : l'.utf8ByteSize ≤ 256)
    (hs : S.Signs K (KeyAuth.authTranscript role ck sk nonce own d' l') s) :
    C.verifyAuthSignature K (KeyAuth.authTranscript role ck sk nonce own d l) s = .ok () ↔
      d = d' ∧ l = l' := by
  have hn' := utf8ByteSize_le_jsonString nonce
  have ho' := utf8ByteSize_le_jsonString own
  rw [S.verify hs]
  constructor
  · rintro ⟨-, heq⟩
    obtain ⟨-, -, -, -, -, hids⟩ := KeyAuth.authTranscript_inj (by omega) (by omega) (by omega)
      (by omega) (by omega) (by omega) (by omega) (by omega) (by omega) (by omega) heq
    exact hids
  · rintro ⟨rfl, rfl⟩
    exact ⟨rfl, rfl⟩

/-- **The outcome of a complete run.** Whatever the order of the two sides' steps, when both have
ended both have accepted if they are acquainted, and both have failed if they are not.

**Proof sketch.** The request always gets through. If its key is not admitted the listener ends,
and the dialer's read finds nothing. Otherwise the dialer finds the challenge, whose proof checks
exactly if both name the ends alike; if it does not, or the key is another one, the dialer ends, and
now the listener's read finds nothing. If it does, so does the dialer's own proof. -/
theorem authenticate_outcome (hd : d.utf8ByteSize ≤ 256) (hl : l.utf8ByteSize ≤ 256)
    (hd' : d'.utf8ByteSize ≤ 256) (hl' : l'.utf8ByteSize ≤ 256)
    {h h' : List HandshakeEvt} {p : Handshake Unit} {q : Handshake PublicKey}
    (hJ : Authentication S me me' peer admits d l d' l' h p h' q) (hp : p.Ended) (hq : q.Ended) :
    (Acquainted me me' peer admits d l d' l' → p = .ret () ∧ q = .ret me.publicKey) ∧
      (¬ Acquainted me me' peer admits d l d' l' → (∃ e, p = .fail e) ∧ ∃ e, q = .fail e) := by
  have hA := hJ.told_left
  have hB := hJ.swap.told_left
  obtain ⟨nonce, h₁, hn, rfl, hawait⟩ := dialer_requests hA hJ.follows_left hp
  obtain ⟨r', h₁', rfl, hadmit⟩ := listener_admits hB hJ.follows_right hq
  -- the listener finds the request
  have hr' : r' = .ok (AuthRequest.keyRequest me.publicKey.toHex nonce).toFrame :=
    hJ.swap.read_left [⟨.sessionStream, .ok ()⟩] _ _ _ _ rfl rfl (request_fits hn)
  obtain ⟨h₂', rfl, hgo, hstop⟩ := hadmit me.publicKey nonce hr'
  subst hr'
  obtain ⟨r, h₂, rfl, hfail, hprove⟩ := dialer_awaits hawait hp
  have hdialer : ∀ e, r = .error e → p = .fail e := fun e he => (hfail e he).2
  cases hadm : admits me.publicKey with
  | error e =>
    obtain ⟨rfl, rfl⟩ := hstop e hadm
    obtain ⟨e', he'⟩ := hJ.starved_left [⟨.sessionStream, .ok ()⟩, ⟨.randomNonce, nonce⟩,
      ⟨.write (AuthRequest.keyRequest me.publicKey.toHex nonce).toFrame, .ok ()⟩] h₂ rfl rfl
    refine ⟨?_, fun _ => ⟨⟨e', hdialer e' he'⟩, e, rfl⟩⟩
    rintro ⟨-, -, -, hok⟩
    rw [hadm] at hok
    cases hok
  | ok u =>
    obtain ⟨own, sl, h₃', ho, hsl, rfl, hverdict⟩ := listener_challenges
      (fun e he => hB e (by simp [he])) (hgo hadm) hq hn hd' hl'
    -- the dialer finds the challenge
    have hr : r = .ok (KeyChallenge.new me'.publicKey.toHex own sl).toFrame :=
      hJ.read_left [⟨.sessionStream, .ok ()⟩, ⟨.randomNonce, nonce⟩,
        ⟨.write (AuthRequest.keyRequest me.publicKey.toHex nonce).toFrame, .ok ()⟩] h₂ _ _ _ rfl rfl
        (challenge_fits ho (S.small hsl))
    have hcheck := hprove me'.publicKey own sl (S.parse _) hr
    subst hr
    obtain ⟨r₁', h₄', rfl, hfail', hconclude⟩ := listener_concludes
      (fun e he => hB e (by simp [he])) hverdict hq
    have hids := proof_checks (d := d) (l := l) (by decide) hn ho hd hl hd' hl' hsl
    by_cases hno : me'.publicKey = peer ∧ C.verifyAuthSignature me'.publicKey
        (KeyAuth.authTranscript "listener" me.publicKey me'.publicKey nonce own d l) sl = .ok ()
    · obtain ⟨hpeer, hver⟩ := hno
      obtain ⟨rfl, rfl⟩ := hids.1 hver
      obtain ⟨s, h₃, hs, rfl, hlast⟩ := dialer_proves (fun e he => hA e (by simp [he])) hcheck hp
        (authTranscript_short (by decide) hn ho hd hl) hpeer hver
      obtain ⟨r₂, h₄, rfl, -, haccept⟩ := dialer_concludes hlast hp
      -- the listener finds the proof, and the dialer the verdict
      have hr₁' : r₁' = .ok (KeyProof.new s).toFrame :=
        hJ.swap.read_left (⟨.sessionStream, .ok ()⟩ :: ⟨.read MAX_CONTROL_MESSAGE_SIZE, _⟩ ::
          ⟨.admitKey me.publicKey, _⟩ :: ⟨.randomNonce, own⟩ :: ⟨.signAuth _, sl⟩ ::
          ⟨.write _, .ok ()⟩ :: []) h₄' _ _ _ rfl rfl
          (proof_fits (S.small hs))
      obtain ⟨h₅', rfl, rfl⟩ := hconclude s hr₁' ((S.verify hs _ _).2 ⟨rfl, rfl⟩)
      subst hr₁'
      have hr₂ : r₂ = .ok AuthResponse.accept.toFrame :=
        hJ.read_left (⟨.sessionStream, .ok ()⟩ :: ⟨.randomNonce, nonce⟩ :: ⟨.write _, .ok ()⟩ ::
          ⟨.read MAX_CONTROL_MESSAGE_SIZE, _⟩ :: ⟨.signAuth _, s⟩ :: ⟨.write _, .ok ()⟩ :: []) h₄
          _ _ _ rfl rfl accept_small
      refine ⟨fun _ => ⟨haccept hr₂, rfl⟩, fun hnot => ?_⟩
      exact absurd ⟨rfl, rfl, hpeer, hadm⟩ hnot
    · obtain ⟨rfl, e, rfl⟩ := dialer_refuses hcheck hno
      obtain ⟨e', he'⟩ := hJ.swap.starved_left (⟨.sessionStream, .ok ()⟩ ::
        ⟨.read MAX_CONTROL_MESSAGE_SIZE, _⟩ :: ⟨.admitKey me.publicKey, _⟩ ::
        ⟨.randomNonce, own⟩ :: ⟨.signAuth _, sl⟩ :: ⟨.write _, .ok ()⟩ :: []) h₄' rfl rfl
      refine ⟨?_, fun _ => ⟨⟨e, rfl⟩, e', hfail' e' he'⟩⟩
      rintro ⟨hd, hl, hpeer, -⟩
      exact absurd ⟨hpeer, hids.2 ⟨hd, hl⟩⟩ hno

/-! ## Completion -/

/-- The dialer reads after its first write and after its second.

**Proof sketch.** By following the program and counting what was written and read. -/
lemma dialer_reads (C : Crypto) (me : Identity) (peer : PublicKey) (d l : String) :
    Prog.Safe WritesOk (ReadsAt [(0, 1), (1, 2)]) (fun _ _ => True) []
      (authenticateDialer C me peer d l) := by
  rw [authenticateDialer_eq, safe_sessionStream_bind]
  refine ⟨trivial, fun _ => ?_, fun _ _ => trivial⟩
  rw [safe_randomNonce_bind]
  refine ⟨trivial, fun nonce _ => ?_⟩
  rw [Prog.safe_ofExcept_bind]
  refine ⟨fun request _ => ?_, fun _ _ => trivial⟩
  rw [safe_writeFrame_bind]
  refine ⟨trivial, fun _ => ?_, fun _ _ => trivial⟩
  unfold dialerAwait
  rw [safe_readLengthPrefixed_bind]
  refine ⟨List.mem_cons_self, fun frame _ => ?_, fun _ _ => trivial⟩
  rw [Prog.safe_ofExcept_bind]
  refine ⟨fun challenge _ => ?_, fun _ _ => trivial⟩
  rw [Prog.safe_ofExcept_bind]
  refine ⟨fun serverKey _ => ?_, fun _ _ => trivial⟩
  unfold dialerProve
  rw [safe_ensure_bind]
  refine ⟨fun _ => ?_, fun _ => trivial⟩
  rw [Prog.safe_ofExcept_bind]
  refine ⟨fun _ _ => ?_, fun _ _ => trivial⟩
  rw [safe_signAuth_bind]
  refine ⟨trivial, fun proof _ => ?_⟩
  rw [Prog.safe_ofExcept_bind]
  refine ⟨fun frame _ => ?_, fun _ _ => trivial⟩
  rw [safe_writeFrame_bind]
  refine ⟨trivial, fun _ => ?_, fun _ _ => trivial⟩
  unfold dialerVerdict
  rw [safe_readLengthPrefixed_bind]
  refine ⟨List.mem_cons_of_mem _ List.mem_cons_self, fun frame _ => ?_, fun _ _ => trivial⟩
  rw [Prog.safe_ofExcept_bind]
  refine ⟨fun response _ => ?_, fun _ _ => trivial⟩
  unfold ensure
  split <;> trivial

/-- The listener reads before its first write and after it.

**Proof sketch.** By following the program and counting what was written and read; the policy does
neither. -/
lemma listener_reads (C : Crypto) (me : Identity) (l d : String) :
    Prog.Safe WritesOk (ReadsAt [(0, 0), (1, 1)]) (fun _ _ => True) []
      (authenticateListener C me l d) := by
  rw [authenticateListener_eq, safe_sessionStream_bind]
  refine ⟨trivial, fun _ => ?_, fun _ _ => trivial⟩
  refine ⟨List.mem_cons_self, fun (r : Except Error Frame) _ => ?_⟩
  unfold listenerRequest
  rw [Prog.bind_assoc, Prog.safe_ofExcept_bind]
  refine ⟨fun request _ => ?_, fun _ _ => trivial⟩
  cases request with
  | pin version pakes => trivial
  | key version publicKey nonce =>
    show Prog.Safe _ _ _ _ (KeyAuth.listenerHandshake C me publicKey nonce d l)
    rw [listenerHandshake_eq, Prog.safe_ofExcept_bind]
    refine ⟨fun K _ => ?_, fun _ _ => trivial⟩
    rw [safe_admitKey_bind]
    refine ⟨trivial, fun _ => ?_, fun _ _ => trivial⟩
    unfold listenerChallenge
    rw [safe_randomNonce_bind]
    refine ⟨trivial, fun own _ => ?_⟩
    rw [safe_signAuth_bind]
    refine ⟨trivial, fun proof _ => ?_⟩
    rw [Prog.safe_ofExcept_bind]
    refine ⟨fun challenge _ => ?_, fun _ _ => trivial⟩
    rw [safe_writeFrame_bind]
    refine ⟨trivial, fun _ => ?_, fun _ _ => trivial⟩
    unfold listenerVerdict
    rw [safe_readLengthPrefixed_bind]
    refine ⟨List.mem_cons_of_mem _ List.mem_cons_self, fun frame _ => ?_, fun _ _ => trivial⟩
    rw [Prog.safe_ofExcept_bind]
    refine ⟨fun proof _ => ?_, fun _ _ => trivial⟩
    unfold listenerCommit
    rw [Prog.safe_ofExcept_bind]
    refine ⟨fun _ _ => ?_, fun _ _ => trivial⟩
    rw [safe_commitKey_bind]
    refine ⟨trivial, fun committed _ => ?_⟩
    rw [safe_ensure_bind]
    refine ⟨fun _ => ?_, fun _ => trivial⟩
    rw [Prog.safe_ofExcept_bind]
    refine ⟨fun verdict _ => ?_, fun _ _ => trivial⟩
    rw [safe_writeFrame_bind]
    exact ⟨trivial, fun _ => trivial, fun _ _ => trivial⟩

/-- Every operation can be answered as the device's own surroundings would.

**Proof sketch.** By the operation; a transcript of the bounded size can be signed. -/
lemma exists_deviceAns (S : Signing C) (K : PublicKey) (o : Op) : ∃ a, DeviceAns S K o a := by
  cases o with
  | sessionStream => exact ⟨(.ok () : Except Error Unit), rfl⟩
  | write frame => exact ⟨(.ok () : Except Error Unit), trivial⟩
  | read max => exact ⟨(.error (.msg "") : Except Error Frame), trivial⟩
  | randomNonce => exact ⟨"", show (jsonString "").utf8ByteSize ≤ 64 by decide⟩
  | signAuth m =>
    by_cases hm : m.length ≤ 1024
    · obtain ⟨s, hs⟩ := S.exists_sign K m hm
      exact ⟨s, fun _ => hs⟩
    · exact ⟨"", fun h => absurd h hm⟩
  | admitKey key => exact ⟨(.ok () : Except Error Unit), trivial⟩
  | commitKey key => exact ⟨true, trivial⟩
  | candidates => exact ⟨([] : List PinPassword), trivial⟩
  | randomPassword => exact ⟨PinPassword.padded "", trivial⟩
  | randomScalar => exact ⟨(0 : ℕ), trivial⟩
  | commitPin => exact ⟨true, trivial⟩

/-- Whatever the host is asked, there is an answer that it may give. -/
lemma exists_hostAns (S : Signing C) (K : PublicKey) (admits : PublicKey → Except Error Unit)
    (o : Op) : ∃ a, HostAns S K admits o a := by
  cases o with
  | admitKey key => exact ⟨admits key, rfl⟩
  | commitKey key => exact ⟨true, rfl⟩
  | _ => exact exists_deviceAns S K _

/-- **Every run can be completed**: the two sides never both wait, and no run is endless.

**Proof sketch.** In a joint state in which both sides wait for a frame, one of them has been sent
one, by the turns of the two programs. So there is always a step, and both programs are finite. -/
theorem authenticate_completes {h h' : List HandshakeEvt} {p : Handshake Unit}
    {q : Handshake PublicKey} (hJ : Authentication S me me' peer admits d l d' l' h p h' q) :
    ∃ h₁ p₁ h₁' q₁, h <+: h₁ ∧ h' <+: h₁' ∧
      Authentication S me me' peer admits d l d' l' h₁ p₁ h₁' q₁ ∧ p₁.Ended ∧ q₁.Ended := by
  refine hJ.completes ?_
  intro h p' h' q' hJ'
  refine hJ'.progress (exists_deviceAns S _) (exists_hostAns S _ admits) ?_
  intro h h' max max' k k' hJ''
  have hread := ((dialer_reads C me peer d l).sound hJ''.follows_left hJ''.writes_ok).2.1
  have hread' := ((listener_reads C me' l' d').sound hJ''.follows_right hJ''.swap.writes_ok).2.1
  simp only [ReadsAt, List.nil_append, List.mem_cons, Prod.mk.injEq, List.not_mem_nil,
    or_false] at hread hread'
  omega

/-- **A transport has to name its ends alike.** Two devices authenticate over any transport whose
stream is reliable and ordered. In whatever order they take their steps, neither waits for the other
forever; and when both have ended, they have accepted each other, the listener under the dialer's
own key, if both name the two ends alike, the dialer looks for this listener's key and the
listener's caller admits the dialer's, and both have failed if not.

**Proof sketch.** A run can be completed because neither side waits in vain. In a complete run each
side is followed to its end: the transcripts that the two sign and check are the same exactly if
they name the ends alike. -/
theorem authenticate_agrees (S : Signing C) (me me' : Identity) (peer : PublicKey)
    (admits : PublicKey → Except Error Unit) (hd : d.utf8ByteSize ≤ 256) (hl : l.utf8ByteSize ≤ 256)
    (hd' : d'.utf8ByteSize ≤ 256) (hl' : l'.utf8ByteSize ≤ 256) (h h' : List HandshakeEvt)
    (p : Handshake Unit) (q : Handshake PublicKey)
    (hJ : Authentication S me me' peer admits d l d' l' h p h' q) :
    (∃ h₁ p₁ h₁' q₁, h <+: h₁ ∧ h' <+: h₁' ∧
      Authentication S me me' peer admits d l d' l' h₁ p₁ h₁' q₁ ∧ p₁.Ended ∧ q₁.Ended) ∧
    (p.Ended → q.Ended →
      (Acquainted me me' peer admits d l d' l' → p = .ret () ∧ q = .ret me.publicKey) ∧
      (¬ Acquainted me me' peer admits d l d' l' → (∃ e, p = .fail e) ∧ ∃ e, q = .fail e)) :=
  ⟨authenticate_completes hJ, fun hp hq => authenticate_outcome hd hl hd' hl' hJ hp hq⟩

/-! ## A run -/

namespace Sample

/-- Primitives of signatures that are what they sign. A signature is its key and the message, in
hexadecimal digits. -/
def signing : Crypto where
  parseKey s := (hexDecode s.toList).bind fun bs =>
    if h : bs.length = 32 then some ⟨bs, h⟩ else none
  verifyAuthSignature K m s :=
    if s = toHex (K.bytes ++ m) then .ok () else .error (.msg "Invalid signature")
  deriveAuthKeyMaterial _ := .error (.msg "no PIN in this run")
  pakeMsgA _ _ := []
  pakeMsgB _ _ := []
  pakeFinishA _ _ _ _ _ := .ok []
  pakeFinishB _ _ _ _ _ := .ok []
  hmac _ _ := []
  b64Encode _ := ""
  b64Decode _ := none

/-- A proof of this kind says who signed what. -/
lemma signing_verify {K K' : PublicKey} {m m' : Bytes} :
    signing.verifyAuthSignature K' m' (toHex (K.bytes ++ m)) = .ok () ↔ K' = K ∧ m' = m := by
  have hlen : K.bytes.length = K'.bytes.length := K.length_eq.trans K'.length_eq.symm
  simp only [signing]
  split
  · rename_i heq
    obtain ⟨hK, hm⟩ := List.append_inj (toHex_inj heq) hlen
    simp only [true_iff]
    exact ⟨PublicKey.ext hK.symm, hm.symm⟩
  · rename_i hne
    simp only [reduceCtorEq, false_iff]
    rintro ⟨rfl, rfl⟩
    exact hne rfl

/-- What a key signs so: a message that is not too long. -/
def Signs (K : PublicKey) (m : Bytes) (s : String) : Prop :=
  m.length ≤ 1024 ∧ s = toHex (K.bytes ++ m)

/-- Every key can sign every transcript. -/
lemma exists_signs (K : PublicKey) (m : Bytes) (hm : m.length ≤ 1024) : ∃ s, Signs K m s :=
  ⟨_, hm, rfl⟩

/-- A signature checks for its own key and transcript, and for no others. -/
lemma verify_signs {K : PublicKey} {m : Bytes} {s : String} (hs : Signs K m s) (K' : PublicKey)
    (m' : Bytes) : signing.verifyAuthSignature K' m' s = .ok () ↔ K' = K ∧ m' = m := by
  rw [hs.2]
  exact signing_verify

/-- Keys are read as they are written. -/
lemma parse_signing (K : PublicKey) : signing.parseKey K.toHex = some K := by
  simp only [signing, PublicKey.toHex, toHex, String.toList_ofList, hexDecode_flatMap,
    Option.bind_some, dif_pos K.length_eq]

/-- A signature is not long. -/
lemma small_signs {K : PublicKey} {m : Bytes} {s : String} (hs : Signs K m s) :
    (jsonString s).utf8ByteSize ≤ 4096 := by
  rw [hs.2, jsonString_toHex, List.length_append, PublicKey.length_eq]
  have := hs.1
  omega

/-- They are ideal. Each law is a lemma about the digits. -/
def idealSigning : Signing signing where
  Signs := Signs
  exists_sign := exists_signs
  verify := verify_signs
  parse := parse_signing
  small := small_signs

end Sample

/-- Two devices over a transport that names its ends by their addresses: one that looks for the
other is accepted, and one that sees its own address translated is not.

**Proof sketch.** The theorem gives a joint run in which both programs have returned, and decides by
the addresses how. In the second one the addresses that the two ends name differ. -/
theorem authenticate_agrees_sample :
    (∃ h h', Authentication Sample.idealSigning ⟨.filled 1⟩ ⟨.filled 2⟩ (.filled 2)
      (fun _ => .ok ()) "10.0.0.5:4000" "10.0.0.7:5000" "10.0.0.5:4000" "10.0.0.7:5000" h
      (.ret ()) h' (.ret (.filled 1))) ∧
    ∃ h h' e e', Authentication Sample.idealSigning ⟨.filled 1⟩ ⟨.filled 2⟩ (.filled 2)
      (fun _ => .ok ()) "192.168.1.5:4000" "10.0.0.7:5000" "10.0.0.5:4000" "10.0.0.7:5000" h
      (.fail e) h' (.fail e') := by
  have ha : "10.0.0.5:4000".utf8ByteSize ≤ 256 := by decide
  have hb : "10.0.0.7:5000".utf8ByteSize ≤ 256 := by decide
  have hc : "192.168.1.5:4000".utf8ByteSize ≤ 256 := by decide
  constructor
  · obtain ⟨h, p, h', q, -, -, hJ, hp, hq⟩ := (authenticate_agrees Sample.idealSigning ⟨.filled 1⟩
      ⟨.filled 2⟩ (.filled 2) (fun _ => .ok ()) ha hb ha hb
      [] [] _ _ .init).1
    obtain ⟨rfl, rfl⟩ := ((authenticate_agrees Sample.idealSigning ⟨.filled 1⟩ ⟨.filled 2⟩
      (.filled 2) (fun _ => .ok ()) ha hb ha hb h h' p q hJ).2
      hp hq).1 ⟨rfl, rfl, rfl, rfl⟩
    exact ⟨h, h', hJ⟩
  · obtain ⟨h, p, h', q, -, -, hJ, hp, hq⟩ := (authenticate_agrees Sample.idealSigning ⟨.filled 1⟩
      ⟨.filled 2⟩ (.filled 2) (fun _ => .ok ()) hc hb ha hb
      [] [] _ _ .init).1
    have hnot : ¬ Acquainted ⟨.filled 1⟩ ⟨.filled 2⟩ (.filled 2) (fun _ => .ok ())
        "192.168.1.5:4000" "10.0.0.7:5000" "10.0.0.5:4000" "10.0.0.7:5000" :=
      fun h => absurd h.1 (by decide)
    obtain ⟨⟨e, rfl⟩, e', rfl⟩ := ((authenticate_agrees Sample.idealSigning ⟨.filled 1⟩
      ⟨.filled 2⟩ (.filled 2) (fun _ => .ok ()) hc hb ha hb
      h h' p q hJ).2 hp hq).2 hnot
    exact ⟨h, h', e, e', hJ⟩

end Against

end Duocb
