import Mathlib.Data.Set.Operations
import Duocb.Handshake

set_option relaxedAutoImplicit false
set_option autoImplicit false

/-!
# Configure-mode mutual authentication

The handshake every clipboard session runs: two devices that hold each other's card prove
possession of the matching application key to each other.

```text
D→L  AuthRequest::Key {version, public_key, nonce_d}
L→D  KeyChallenge     {public_key, nonce_l, proof_l}
D→L  KeyProof         {proof_d}
L→D  AuthResponse     {accepted}
```

## Main definitions

* `Duocb.KeyAuth.authTranscript` — the signed transcript.
* `Duocb.KeyAuth.TranscriptFields` — what a transcript says.
* `Duocb.KeyAuth.dialerHandshake`, `Duocb.KeyAuth.listenerHandshake` — the two halves.

## Main results

* `Duocb.KeyAuth.authTranscript_inj` — equal transcripts have equal fields.
* `Duocb.KeyAuth.authTranscript_dialer_ne` — a dialer's transcript is never a listener's.
* `Duocb.KeyAuth.TranscriptFields.transcript_injOn` — both, for the fields as a whole.
* `Duocb.KeyAuth.dialer_safe`, `Duocb.KeyAuth.listener_safe` — what each half has done before
  every operation, and what it has seen when it returns. Whoever answers, every other fact about
  a half is read off these two.
-/

namespace Duocb.KeyAuth

/-! ## The transcript -/

/-- A 16-bit number, big-endian. -/
def be16 (n : ℕ) : Bytes := [UInt8.ofNat (n / 2 ^ 8), UInt8.ofNat n]

/-- A 32-bit number, big-endian. -/
def be32 (n : ℕ) : Bytes :=
  [UInt8.ofNat (n / 2 ^ 24), UInt8.ofNat (n / 2 ^ 16), UInt8.ofNat (n / 2 ^ 8), UInt8.ofNat n]

/-- A length-prefixed field. -/
def field (value : Bytes) : Bytes := be32 value.length ++ value

/-- The signed transcript. `role` is the half being proven, so one side's proof can never be
replayed as the other's, and every field is length-prefixed. -/
def authTranscript (role : String) (clientKey serverKey : PublicKey) (clientNonce serverNonce
    clientTransportId serverTransportId : String) : Bytes :=
  be16 DUOCB_PROTO_VERSION ++ field (utf8 role) ++ field clientKey.bytes ++ field serverKey.bytes ++
    field (utf8 clientNonce) ++ field (utf8 serverNonce) ++ field (utf8 clientTransportId) ++
    field (utf8 serverTransportId)

/-- A length of 32 bits is read back from its four bytes. -/
lemma be32_inj {m n : ℕ} (hm : m < 2 ^ 32) (hn : n < 2 ^ 32) (h : be32 m = be32 n) : m = n := by
  simp only [be32, List.cons.injEq, and_true, ← UInt8.toNat_inj, UInt8.toNat_ofNat'] at h
  omega

/-- **Fields do not run into each other.** A length-prefixed field and what follows it are
determined by the bytes, for fields whose length fits the prefix. -/
lemma field_append_inj {a b x y : Bytes} (ha : a.length < 2 ^ 32) (hb : b.length < 2 ^ 32)
    (h : field a ++ x = field b ++ y) : a = b ∧ x = y := by
  simp only [field, List.append_assoc] at h
  obtain ⟨hlen, hrest⟩ := List.append_inj h rfl
  exact List.append_inj hrest (be32_inj ha hb hlen)

/-- A field is read back from its length and its bytes. -/
lemma field_inj {a b : Bytes} (ha : a.length < 2 ^ 32) (hb : b.length < 2 ^ 32)
    (h : field a = field b) : a = b :=
  (field_append_inj (x := []) (y := []) ha hb (by simpa using h)).1

/-- Equal transcripts have equal fields.

**Proof sketch.** Every field stands behind its length, so the fields are read off one after the
other; the keys have a fixed length. -/
lemma authTranscript_inj {role role' : String} {ck ck' sk sk' : PublicKey}
    {cn cn' sn sn' ci ci' si si' : String}
    (hrole : role.utf8ByteSize < 2 ^ 32) (hrole' : role'.utf8ByteSize < 2 ^ 32)
    (hcn : cn.utf8ByteSize < 2 ^ 32) (hcn' : cn'.utf8ByteSize < 2 ^ 32)
    (hsn : sn.utf8ByteSize < 2 ^ 32) (hsn' : sn'.utf8ByteSize < 2 ^ 32)
    (hci : ci.utf8ByteSize < 2 ^ 32) (hci' : ci'.utf8ByteSize < 2 ^ 32)
    (hsi : si.utf8ByteSize < 2 ^ 32) (hsi' : si'.utf8ByteSize < 2 ^ 32)
    (h : authTranscript role ck sk cn sn ci si = authTranscript role' ck' sk' cn' sn' ci' si') :
    role = role' ∧ ck = ck' ∧ sk = sk' ∧ cn = cn' ∧ sn = sn' ∧ ci = ci' ∧ si = si' := by
  have key : ∀ k : PublicKey, k.bytes.length < 2 ^ 32 := fun k => by rw [k.length_eq]; decide
  simp only [authTranscript, List.append_assoc] at h
  obtain ⟨-, h⟩ := List.append_inj h rfl
  obtain ⟨h1, h⟩ := field_append_inj (by simpa) (by simpa) h
  obtain ⟨h2, h⟩ := field_append_inj (key _) (key _) h
  obtain ⟨h3, h⟩ := field_append_inj (key _) (key _) h
  obtain ⟨h4, h⟩ := field_append_inj (by simpa) (by simpa) h
  obtain ⟨h5, h⟩ := field_append_inj (by simpa) (by simpa) h
  obtain ⟨h6, h⟩ := field_append_inj (by simpa) (by simpa) h
  have h7 := field_inj (by simpa) (by simpa) h
  refine ⟨utf8_inj.1 h1, ?_, ?_, utf8_inj.1 h4, utf8_inj.1 h5, utf8_inj.1 h6, utf8_inj.1 h7⟩
  · cases ck; cases ck'; simpa using h2
  · cases sk; cases sk'; simpa using h3

/-- A dialer's transcript is never a listener's: the role stands before everything else. -/
lemma authTranscript_dialer_ne {ck ck' sk sk' : PublicKey} {cn cn' sn sn' ci ci' si si' : String} :
    authTranscript "dialer" ck sk cn sn ci si ≠
      authTranscript "listener" ck' sk' cn' sn' ci' si' := by
  intro h
  simp only [authTranscript, List.append_assoc] at h
  obtain ⟨-, hfields⟩ := List.append_inj h rfl
  obtain ⟨hrole, -⟩ := field_append_inj (by decide) (by decide) hfields
  exact absurd (utf8_inj.1 hrole) (by decide)

/-- What a transcript says: the half being proven, the two keys, the two nonces and the transport's
names for the two ends. -/
structure TranscriptFields where
  role : String
  clientKey : PublicKey
  serverKey : PublicKey
  clientNonce : String
  serverNonce : String
  clientTransportId : String
  serverTransportId : String

namespace TranscriptFields

/-- The transcript of these fields. -/
def transcript (f : TranscriptFields) : Bytes :=
  authTranscript f.role f.clientKey f.serverKey f.clientNonce f.serverNonce f.clientTransportId
    f.serverTransportId

/-- The size of every text fits into its length prefix. Keys always do. Under this bound the
transcript determines its fields; the handshake only signs such fields. -/
structure Short (f : TranscriptFields) : Prop where
  role : f.role.utf8ByteSize < 2 ^ 32
  clientNonce : f.clientNonce.utf8ByteSize < 2 ^ 32
  serverNonce : f.serverNonce.utf8ByteSize < 2 ^ 32
  clientTransportId : f.clientTransportId.utf8ByteSize < 2 ^ 32
  serverTransportId : f.serverTransportId.utf8ByteSize < 2 ^ 32

/-- **A transcript says one thing only.** Fields that fit their length prefixes can be read off
their transcript, and a dialer's transcript is never a listener's, whatever the other fields are.

**Proof sketch.** Every field starts with its length, so equal bytes have equal first fields and
equal rests, field by field. For the two roles the first field is enough, and it fits. -/
theorem transcript_injOn :
    Set.InjOn transcript {f | f.Short} ∧
      ∀ f f' : TranscriptFields, f.role = "dialer" → f'.role = "listener" →
        f.transcript ≠ f'.transcript := by
  constructor
  · intro f hf f' hf' h
    obtain ⟨hrole, hck, hsk, hcn, hsn, hci, hsi⟩ := authTranscript_inj hf.role hf'.role
      hf.clientNonce hf'.clientNonce hf.serverNonce hf'.serverNonce hf.clientTransportId
      hf'.clientTransportId hf.serverTransportId hf'.serverTransportId h
    cases f
    cases f'
    simp only at hrole hck hsk hcn hsn hci hsi
    subst hrole hck hsk hcn hsn hci hsi
    rfl
  · intro f f' hdialer hlistener
    rw [transcript, transcript, hdialer, hlistener]
    exact authTranscript_dialer_ne

/-- Moving a character from one nonce to the other makes another transcript, although the two
nonces are the same text when they are put one after the other. -/
theorem transcript_injOn_nonces :
    transcript ⟨"dialer", .filled 1, .filled 2, "ab", "c", "x", "y"⟩ ≠
      transcript ⟨"dialer", .filled 1, .filled 2, "a", "bc", "x", "y"⟩ := by
  intro h
  have heq := transcript_injOn.1 ⟨by decide, by decide, by decide, by decide, by decide⟩
    ⟨by decide, by decide, by decide, by decide, by decide⟩ h
  exact absurd (congrArg clientNonce heq) (by decide)

end TranscriptFields

/-! ## The two halves -/

section Halves

variable (C : Crypto)

/-- Run the dialing half. `expectedPeer` is the key of the device the user picked: a listener that
presents any other key is refused before this side signs anything. -/
def dialerHandshake (identity : Identity) (expectedPeer : PublicKey)
    (dialerId listenerId : String) : Handshake Unit := do
  let clientNonce ← randomNonce
  let request := AuthRequest.keyRequest identity.publicKey.toHex clientNonce
  writeFrame (← .ofExcept (encodeAuthRequest request))
  let challengeBytes ← readLengthPrefixed MAX_CONTROL_MESSAGE_SIZE
  let challenge ← .ofExcept
    (withContext (decodeKeyChallenge challengeBytes) "invalid key-auth challenge")
  let serverKey ← .ofExcept (match C.parseKey challenge.publicKey with
    | some k => .ok k
    | none => .error (.msg "listener supplied an invalid application key"))
  ensure (serverKey = expectedPeer)
    (.msg "listener application key does not match the selected peer")
  .ofExcept (C.verifyAuthSignature serverKey
    (authTranscript "listener" identity.publicKey serverKey clientNonce challenge.nonce dialerId
      listenerId) challenge.proof)
  let proof ← signAuth
    (authTranscript "dialer" identity.publicKey serverKey clientNonce challenge.nonce dialerId
      listenerId)
  writeFrame (← .ofExcept (encodeKeyProof (.new proof)))
  let responseBytes ← readLengthPrefixed MAX_CONTROL_MESSAGE_SIZE
  let response ← .ofExcept
    (withContext (decodeAuthResponse responseBytes) "invalid key-auth response")
  ensure response.accepted
    (.msg ("authentication rejected: " ++ response.reason.getD "unknown reason"))

/-- Run the listening half, given the key and nonce the dialer opened with. `admit` runs before
this device signs anything, `commit` after the dialer's proof verifies and before the acceptance
frame goes out. -/
def listenerHandshake (identity : Identity) (clientPublicKey clientNonce dialerId
    listenerId : String) : Handshake PublicKey := do
  let clientKey ← .ofExcept (match C.parseKey clientPublicKey with
    | some k => .ok k
    | none => .error (.msg "dialer application key is invalid"))
  admitKey clientKey
  let serverNonce ← randomNonce
  let proof ← signAuth
    (authTranscript "listener" clientKey identity.publicKey clientNonce serverNonce dialerId
      listenerId)
  let challenge := KeyChallenge.new identity.publicKey.toHex serverNonce proof
  writeFrame (← .ofExcept (encodeKeyChallenge challenge))
  let proofBytes ← readLengthPrefixed MAX_CONTROL_MESSAGE_SIZE
  let proof ← .ofExcept (withContext (decodeKeyProof proofBytes) "invalid dialer key proof")
  .ofExcept (C.verifyAuthSignature clientKey
    (authTranscript "dialer" clientKey identity.publicKey clientNonce serverNonce dialerId
      listenerId) proof.proof)
  let committed ← commitKey clientKey
  ensure committed (.msg "another application identity paired first")
  writeFrame (← .ofExcept (encodeAuthResponse .accept))
  return clientKey

/-! ## What each half has done and seen -/

variable (identity : Identity)

/-- The dialer holds a challenge whose listener proof verified under the expected key, over its
own nonce, key and ids. -/
structure ChallengeVerified (expectedPeer : PublicKey) (dialerId listenerId : String)
    (h : List HandshakeEvt) (nonce : String) (challenge : KeyChallenge) : Prop where
  drawn : ⟨.randomNonce, nonce⟩ ∈ h
  received : ∃ frame : Frame, ⟨.read MAX_CONTROL_MESSAGE_SIZE, .ok frame⟩ ∈ h ∧
    decodeKeyChallenge frame = .ok challenge
  proved : C.verifyAuthSignature expectedPeer
    (authTranscript "listener" identity.publicKey expectedPeer nonce challenge.nonce dialerId
      listenerId) challenge.proof = .ok ()

/-- The listener holds a proof that verified under the dialer's key, over its own nonce, key and
ids, and it has been admitted. -/
structure ProofVerified (clientNonce dialerId listenerId : String) (h : List HandshakeEvt)
    (key : PublicKey) (nonce : String) (proof : KeyProof) : Prop where
  admitted : ⟨.admitKey key, .ok ()⟩ ∈ h
  drawn : ⟨.randomNonce, nonce⟩ ∈ h
  received : ∃ frame : Frame, ⟨.read MAX_CONTROL_MESSAGE_SIZE, .ok frame⟩ ∈ h ∧
    decodeKeyProof frame = .ok proof
  proved : C.verifyAuthSignature key
    (authTranscript "dialer" key identity.publicKey clientNonce nonce dialerId listenerId)
      proof.proof = .ok ()

/-- No signature has been made yet. -/
def Unsigned (h : List HandshakeEvt) : Prop := ∀ e ∈ h, ∀ m, e.1 ≠ .signAuth m

/-- No nonce has been drawn yet. -/
def Undrawn (h : List HandshakeEvt) : Prop := ∀ e ∈ h, e.1 ≠ .randomNonce

/-- What a dialer has done before each of its operations. It signs once, for a challenge that
verified; what it writes before that is its request, and after that its proof. -/
def DialerDid (expectedPeer : PublicKey) (dialerId listenerId : String) (h : List HandshakeEvt) :
    Op → Prop
  | .randomNonce => Undrawn h
  | .signAuth m => Unsigned h ∧ ∃ nonce challenge,
      ChallengeVerified C identity expectedPeer dialerId listenerId h nonce challenge ∧
      m = authTranscript "dialer" identity.publicKey expectedPeer nonce challenge.nonce dialerId
        listenerId
  | .write frame =>
      (∃ nonce, frame = (AuthRequest.keyRequest identity.publicKey.toHex nonce).toFrame) ∨
      ∃ nonce challenge m s,
        ChallengeVerified C identity expectedPeer dialerId listenerId h nonce challenge ∧
        ⟨.signAuth m, s⟩ ∈ h ∧ frame = (KeyProof.new s).toFrame
  | .read _ => True
  | _ => False

/-- What a listener has done before each of its operations. It signs once, after the dialer's key
was admitted, and it asks for the claim only once the dialer's proof verified. -/
def ListenerDid (clientPublicKey clientNonce dialerId listenerId : String)
    (h : List HandshakeEvt) : Op → Prop
  | .admitKey key => h = [] ∧ C.parseKey clientPublicKey = some key
  | .randomNonce => Undrawn h
  | .signAuth m => Unsigned h ∧ ∃ key nonce, C.parseKey clientPublicKey = some key ∧
      ⟨.admitKey key, .ok ()⟩ ∈ h ∧ ⟨.randomNonce, nonce⟩ ∈ h ∧
      m = authTranscript "listener" key identity.publicKey clientNonce nonce dialerId listenerId
  | .commitKey key => C.parseKey clientPublicKey = some key ∧ ∃ nonce proof,
      ProofVerified C identity clientNonce dialerId listenerId h key nonce proof
  | .write frame => (∃ m s nonce, ⟨.signAuth m, s⟩ ∈ h ∧
        frame = (KeyChallenge.new identity.publicKey.toHex nonce s).toFrame) ∨
      ∃ key, ⟨.commitKey key, true⟩ ∈ h ∧ frame = AuthResponse.accept.toFrame
  | .read _ => True
  | _ => False

/-- The dialer returns only after it has signed.

**Proof sketch.** By following the program: every operation is one of those that it may do, and the
one signature stands before the read of the verdict. -/
theorem dialer_safe (expectedPeer : PublicKey) (dialerId listenerId : String) :
    Prog.Safe (fun _ _ => True) (DialerDid C identity expectedPeer dialerId listenerId)
      (fun h r => r = .ok () → ∃ m s, ⟨.signAuth m, s⟩ ∈ h) []
      (dialerHandshake C identity expectedPeer dialerId listenerId) := by
  unfold dialerHandshake
  rw [safe_randomNonce_bind]
  refine ⟨by simp [DialerDid, Undrawn], fun nonce _ => ?_⟩
  rw [Prog.safe_ofExcept_bind]
  refine ⟨fun request hreq => ?_, by simp⟩
  obtain ⟨rfl, -⟩ := encodeLengthPrefixed_ok.1 hreq
  rw [safe_writeFrame_bind]
  refine ⟨.inl ⟨nonce, rfl⟩, fun _ => ?_, by simp⟩
  rw [safe_readLengthPrefixed_bind]
  refine ⟨trivial, fun frame _ => ?_, by simp⟩
  rw [Prog.safe_ofExcept_bind]
  refine ⟨fun challenge hch => ?_, by simp⟩
  rw [Prog.safe_ofExcept_bind]
  refine ⟨fun serverKey _ => ?_, by simp⟩
  rw [safe_ensure_bind]
  refine ⟨fun hkey => ?_, by simp⟩
  obtain rfl : serverKey = expectedPeer := by simpa using hkey
  rw [Prog.safe_ofExcept_bind]
  refine ⟨fun _ hproof => ?_, by simp⟩
  rw [safe_signAuth_bind]
  have hdec : decodeKeyChallenge frame = .ok challenge := withContext_eq_ok.1 hch
  have hver : ∀ h', ⟨.randomNonce, nonce⟩ ∈ h' →
      ⟨.read MAX_CONTROL_MESSAGE_SIZE, .ok frame⟩ ∈ h' →
      ChallengeVerified C identity serverKey dialerId listenerId h' nonce challenge :=
    fun h' hn hr => ⟨hn, ⟨frame, hr, hdec⟩, hproof⟩
  refine ⟨⟨by simp [Unsigned], nonce, challenge, hver _ (by simp) (by simp), rfl⟩, fun s _ => ?_⟩
  rw [Prog.safe_ofExcept_bind]
  refine ⟨fun proof hpr => ?_, by simp⟩
  obtain ⟨rfl, -⟩ := encodeLengthPrefixed_ok.1 hpr
  rw [safe_writeFrame_bind]
  refine ⟨.inr ⟨nonce, challenge, _, s, hver _ (by simp) (by simp), List.mem_concat_self, rfl⟩,
    fun _ => ?_, by simp⟩
  rw [safe_readLengthPrefixed_bind]
  refine ⟨trivial, fun response _ => ?_, by simp⟩
  rw [Prog.safe_ofExcept_bind]
  refine ⟨fun r _ => ?_, by simp⟩
  unfold ensure
  split
  · exact fun _ => ⟨_, s, List.mem_append_left _ (List.mem_append_left _ List.mem_concat_self)⟩
  · simp

/-- The listener returns a key only after it was admitted and won the claim.

**Proof sketch.** By following the program: a key is returned behind the commit that granted it, and
every other end is an error. -/
theorem listener_safe (clientPublicKey clientNonce dialerId listenerId : String) :
    Prog.Safe (fun _ _ => True)
      (ListenerDid C identity clientPublicKey clientNonce dialerId listenerId)
      (fun h r => ∀ key, r = .ok key → ⟨.commitKey key, true⟩ ∈ h) []
      (listenerHandshake C identity clientPublicKey clientNonce dialerId listenerId) := by
  unfold listenerHandshake
  rw [Prog.safe_ofExcept_bind]
  refine ⟨fun key hkey => ?_, by simp⟩
  replace hkey : C.parseKey clientPublicKey = some key := by
    rcases hp : C.parseKey clientPublicKey with _ | k <;> simp_all
  rw [safe_admitKey_bind]
  refine ⟨⟨rfl, hkey⟩, fun _ => ?_, by simp⟩
  rw [safe_randomNonce_bind]
  refine ⟨by simp [ListenerDid, Undrawn], fun nonce _ => ?_⟩
  rw [safe_signAuth_bind]
  refine ⟨⟨by simp [Unsigned], key, nonce, hkey, by simp, by simp, rfl⟩, fun s _ => ?_⟩
  rw [Prog.safe_ofExcept_bind]
  refine ⟨fun challenge hch => ?_, by simp⟩
  obtain ⟨rfl, -⟩ := encodeLengthPrefixed_ok.1 hch
  rw [safe_writeFrame_bind]
  refine ⟨.inl ⟨_, s, nonce, List.mem_concat_self, rfl⟩, fun _ => ?_, by simp⟩
  rw [safe_readLengthPrefixed_bind]
  refine ⟨trivial, fun frame _ => ?_, by simp⟩
  rw [Prog.safe_ofExcept_bind]
  refine ⟨fun proof hpr => ?_, by simp⟩
  rw [Prog.safe_ofExcept_bind]
  refine ⟨fun _ hproof => ?_, by simp⟩
  rw [safe_commitKey_bind]
  have hdec : decodeKeyProof frame = .ok proof := withContext_eq_ok.1 hpr
  refine ⟨⟨hkey, nonce, proof, by simp, by simp, ⟨frame, by simp, hdec⟩, hproof⟩,
    fun committed _ => ?_⟩
  rw [safe_ensure_bind]
  refine ⟨fun hc => ?_, by simp⟩
  subst hc
  rw [Prog.safe_ofExcept_bind]
  refine ⟨fun response hresp => ?_, by simp⟩
  obtain ⟨rfl, -⟩ := encodeLengthPrefixed_ok.1 hresp
  rw [safe_writeFrame_bind]
  exact ⟨.inr ⟨key, by simp, rfl⟩, fun _ => by simp, by simp⟩

/-! ## The exchange that succeeds -/

/-- A dialer that is answered by the listener it expects gets through.

**Proof sketch.** The program is followed operation by operation; each check on the way is one of
the hypotheses. -/
lemma dialer_follows {me : Identity} {peer : PublicKey} {did lid nonce theirs sl sd : String}
    (hparse : C.parseKey peer.toHex = some peer)
    (hver : C.verifyAuthSignature peer
      (authTranscript "listener" me.publicKey peer nonce theirs did lid) sl = .ok ())
    (hreq : (AuthRequest.keyRequest me.publicKey.toHex nonce).toFrame.size ≤
      MAX_CONTROL_MESSAGE_SIZE)
    (hproof : (KeyProof.new sd).toFrame.size ≤ MAX_CONTROL_MESSAGE_SIZE) :
    Prog.Follows (dialerHandshake C me peer did lid)
      ([⟨.randomNonce, nonce⟩,
        ⟨.write (AuthRequest.keyRequest me.publicKey.toHex nonce).toFrame, .ok ()⟩] ++
      ([⟨.read MAX_CONTROL_MESSAGE_SIZE, .ok (KeyChallenge.new peer.toHex theirs sl).toFrame⟩,
        ⟨.signAuth (authTranscript "dialer" me.publicKey peer nonce theirs did lid), sd⟩,
        ⟨.write (KeyProof.new sd).toFrame, .ok ()⟩] ++
      [⟨.read MAX_CONTROL_MESSAGE_SIZE, .ok AuthResponse.accept.toFrame⟩])) (.ret ()) := by
  refine follows_randomNonce ?_
  refine follows_ofExcept (encodeLengthPrefixed_ok.2 ⟨rfl, hreq⟩) ?_
  refine follows_writeFrame (follows_readLengthPrefixed ?_)
  refine follows_ofExcept (b := KeyChallenge.new peer.toHex theirs sl)
    (by rw [decodeKeyChallenge_toFrame]; rfl) ?_
  refine follows_ofExcept (b := peer) (by simp [KeyChallenge.new, hparse]) ?_
  refine follows_ensure (decide_eq_true rfl) (follows_ofExcept hver (follows_signAuth ?_))
  refine follows_ofExcept (encodeLengthPrefixed_ok.2 ⟨rfl, hproof⟩) ?_
  refine follows_writeFrame (follows_readLengthPrefixed ?_)
  refine follows_ofExcept (b := .accept) (by rw [decodeAuthResponse_accept]; rfl) ?_
  exact .nil _

/-- A listener that admits the dialer and is answered by it gets through.

**Proof sketch.** The program is followed operation by operation; each check on the way is one of
the hypotheses. -/
lemma listener_follows {me : Identity} {K : PublicKey} {key nonce did lid own sl sd : String}
    (hparse : C.parseKey key = some K)
    (hver : C.verifyAuthSignature K
      (authTranscript "dialer" K me.publicKey nonce own did lid) sd = .ok ())
    (hch : (KeyChallenge.new me.publicKey.toHex own sl).toFrame.size ≤ MAX_CONTROL_MESSAGE_SIZE) :
    Prog.Follows (listenerHandshake C me key nonce did lid)
      ([⟨.admitKey K, .ok ()⟩, ⟨.randomNonce, own⟩,
        ⟨.signAuth (authTranscript "listener" K me.publicKey nonce own did lid), sl⟩,
        ⟨.write (KeyChallenge.new me.publicKey.toHex own sl).toFrame, .ok ()⟩] ++
      [⟨.read MAX_CONTROL_MESSAGE_SIZE, .ok (KeyProof.new sd).toFrame⟩, ⟨.commitKey K, true⟩,
        ⟨.write AuthResponse.accept.toFrame, .ok ()⟩]) (.ret K) := by
  have haccept : AuthResponse.accept.toFrame.size ≤ MAX_CONTROL_MESSAGE_SIZE := by decide +kernel
  refine follows_ofExcept (b := K) (by simp [hparse]) (follows_admitKey (follows_randomNonce ?_))
  refine follows_signAuth (follows_ofExcept (encodeLengthPrefixed_ok.2 ⟨rfl, hch⟩) ?_)
  refine follows_writeFrame (follows_readLengthPrefixed ?_)
  refine follows_ofExcept (b := KeyProof.new sd) (by rw [decodeKeyProof_toFrame]; rfl) ?_
  refine follows_ofExcept hver (follows_commitKey (follows_ensure rfl ?_))
  refine follows_ofExcept (encodeLengthPrefixed_ok.2 ⟨rfl, haccept⟩) ?_
  exact follows_writeFrame (.nil _)

end Halves

end Duocb.KeyAuth
