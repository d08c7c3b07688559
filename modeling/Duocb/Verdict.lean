import Mathlib.Data.List.Forall2
import Duocb.KeyAuth.Pool
import Duocb.PinAuth.Agreement

set_option relaxedAutoImplicit false
set_option autoImplicit false

/-!
# The listener's verdict

Both listening halves ask the host's policy for the claim once the dialer's proof has verified, and
close with a frame that tells the dialer whether it was accepted. The PIN half sends that frame
either way. The key half sends it only when the claim was granted: a dialer that lost the race sees
the stream end.

## Main definitions

* `Duocb.commits`, `Duocb.verdicts` — the answers to the claim, and the flags of the verdict frames.
* `Duocb.Delivered` — a run ends with its one verdict frame.
* `Duocb.PinAuth.ProofMatched` — the dialer's confirmations matched a slot.

## Main results

* `Duocb.KeyAuth.listener_settles`, `Duocb.PinAuth.listener_settles` — how complete runs end.
* `Duocb.commit_verdict_delivered` — the verdict is delivered in every PIN run, and in exactly the
  key runs whose claim was granted.
* `Duocb.lost_race_untold` — a key run that loses the claim and tells nobody.
-/

namespace Duocb

/-! ## What stands in a history -/

/-- The answer to the claim. -/
def commitOf : HandshakeEvt → Option Bool
  | ⟨.commitKey _, (b : Bool)⟩ => some b
  | ⟨.commitPin, (b : Bool)⟩ => some b
  | _ => none

/-- The `accepted` flag of a frame that was written. Only verdicts carry one. -/
def acceptedOf : HandshakeEvt → Option Bool
  | ⟨.write frame, _⟩ => frame.bool "accepted"
  | _ => none

/-- The answers to the claim, in order. -/
def commits (h : List HandshakeEvt) : List Bool := h.filterMap commitOf

/-- The flags of the verdict frames, in order. -/
def verdicts (h : List HandshakeEvt) : List Bool := h.filterMap acceptedOf

/-- The run closes with its one verdict frame, which carries the flag `b`. -/
def Delivered (h : List HandshakeEvt) (b : Bool) : Prop :=
  ∃ h' frame a, h = h' ++ [⟨.write frame, a⟩] ∧ verdicts h' = [] ∧ frame.bool "accepted" = some b

/-- Nothing has been claimed or answered yet. -/
def Unsettled (h : List HandshakeEvt) : Prop := commits h = [] ∧ verdicts h = []

/-- An acceptance is written only after the claim was granted. -/
def VerdictDue (h : List HandshakeEvt) : Op → Prop
  | .write frame => frame.bool "accepted" = some true → true ∈ commits h
  | _ => True

/-- The commits in two stretches of a history, one after the other. -/
@[simp] lemma commits_append (h h' : List HandshakeEvt) :
    commits (h ++ h') = commits h ++ commits h' :=
  List.filterMap_append

/-- The verdicts in two stretches of a history, one after the other. -/
@[simp] lemma verdicts_append (h h' : List HandshakeEvt) :
    verdicts (h ++ h') = verdicts h ++ verdicts h' :=
  List.filterMap_append

/-- What the claim adds to a run without a verdict. -/
lemma Unsettled.asked {h : List HandshakeEvt} (hu : Unsettled h) {e : HandshakeEvt} {b : Bool}
    (he : commitOf e = some b) (hw : acceptedOf e = none) :
    commits (h ++ [e]) = [b] ∧ verdicts (h ++ [e]) = [] := by
  rw [commits_append, verdicts_append, hu.1, hu.2]
  simp [commits, verdicts, he, hw]

/-- Everything else leaves a run unsettled. -/
lemma Unsettled.quiet {h : List HandshakeEvt} (hu : Unsettled h) {e : HandshakeEvt}
    (he : commitOf e = none) (hw : acceptedOf e = none) : Unsettled (h ++ [e]) := by
  rw [Unsettled, commits_append, verdicts_append, hu.1, hu.2]
  simp [commits, verdicts, he, hw]

/-- A history in which a verdict was delivered holds that one and no other. -/
lemma Delivered.verdicts_eq {h : List HandshakeEvt} {b : Bool} (hd : Delivered h b) :
    verdicts h = [b] := by
  obtain ⟨h', frame, a, rfl, hnone, hflag⟩ := hd
  rw [verdicts_append, hnone]
  simp [verdicts, acceptedOf, hflag]

/-- A program that owes acceptances to the claim writes none without it. -/
lemma accepted_of_due {α : Type} {R : (o : Op) → Ans o → Prop}
    {Q : List HandshakeEvt → Except Error α → Prop} {p q : Handshake α} {h : List HandshakeEvt}
    (hp : Prog.Safe R VerdictDue Q [] p) (hf : p.Follows h q) (hR : ∀ e ∈ h, R e.1 e.2)
    (hv : true ∈ verdicts h) : true ∈ commits h := by
  obtain ⟨e, he, hflag⟩ := List.mem_filterMap.1 hv
  obtain ⟨h₁, h₂, rfl⟩ := List.append_of_mem he
  have hdue := hp.obligation hf hR
  rcases e with ⟨o, a⟩
  cases o <;> simp only [acceptedOf, reduceCtorEq] at hflag
  rw [commits_append]
  exact List.mem_append_left _ (hdue hflag)

/-- A key challenge is no verdict, -/
@[simp] lemma bool_keyChallenge (pk n p : String) :
    (KeyChallenge.new pk n p).toFrame.bool "accepted" = none := by
  simp [KeyChallenge.new, KeyChallenge.toFrame, Frame.bool, Frame.field]

/-- and neither is a PIN challenge. -/
@[simp] lemma bool_pinChallenge (ps : List String) :
    (PinChallenge.new ps).toFrame.bool "accepted" = none := by
  simp [PinChallenge.new, PinChallenge.toFrame, Frame.bool, Frame.field]

/-- A verdict that accepts a key says so. -/
@[simp] lemma bool_authAccept : AuthResponse.accept.toFrame.bool "accepted" = some true := by
  simp [AuthResponse.accept, AuthResponse.toFrame, optField, Frame.bool, Frame.field]

/-- A verdict that accepts a PIN says so. -/
@[simp] lemma bool_pinAccept (slot : ℕ) (mac : String) :
    (PinConfirm.accept slot mac).toFrame.bool "accepted" = some true := by
  simp [PinConfirm.accept, PinConfirm.toFrame, optField, Frame.bool, Frame.field]

/-- A verdict that turns a PIN away says so. -/
@[simp] lemma bool_pinRejected (reason : String) :
    (PinConfirm.rejected reason).toFrame.bool "accepted" = some false := by
  simp [PinConfirm.rejected, PinConfirm.toFrame, optField, Frame.bool, Frame.field]

/-! ## The key half -/

namespace KeyAuth

variable (C : Crypto) (identity : Identity)

/-- How a complete run of the key half ends: the dialer's proof did not verify, or it lost the
claim and the run is over, or it won the claim and was told so. -/
def Settled (clientPublicKey clientNonce dialerId listenerId : String) (h : List HandshakeEvt) :
    Prop :=
  (Unsettled h ∧ ∀ key nonce proof, C.parseKey clientPublicKey = some key →
    ¬ ProofVerified C identity clientNonce dialerId listenerId h key nonce proof) ∨
  (commits h = [false] ∧ verdicts h = []) ∨ (commits h = [true] ∧ Delivered h true)

/-- **How the key half ends.**

**Proof sketch.** The half is followed operation by operation. Up to the claim it has written its
challenge only, and each way out leaves a proof that is missing, unreadable or wrong. The claim is
the last thing it does when it is refused. -/
theorem listener_settles (clientPublicKey clientNonce dialerId listenerId : String) :
    Prog.Safe (fun _ _ => True) VerdictDue
      (fun h _ => Settled C identity clientPublicKey clientNonce dialerId listenerId h) []
      (listenerHandshake C identity clientPublicKey clientNonce dialerId listenerId) := by
  -- before anything is read there is no proof
  have unread : ∀ h : List HandshakeEvt, Unsettled h →
      received h = [] →
      Settled C identity clientPublicKey clientNonce dialerId listenerId h := by
    intro h hu hread
    refine .inl ⟨hu, fun key nonce proof _ hv => ?_⟩
    obtain ⟨frame, hmem, -⟩ := hv.received
    simpa [hread] using mem_received hmem
  unfold listenerHandshake
  rw [Prog.safe_ofExcept_bind]
  refine ⟨fun key hkey => ?_, fun _ _ => unread _ ⟨rfl, rfl⟩ rfl⟩
  replace hkey : C.parseKey clientPublicKey = some key := by
    rcases hp : C.parseKey clientPublicKey with _ | k <;> simp_all
  rw [safe_admitKey_bind]
  refine ⟨trivial, fun _ => ?_, fun _ _ => unread _ ⟨rfl, rfl⟩ rfl⟩
  rw [safe_randomNonce_bind]
  refine ⟨trivial, fun nonce _ => ?_⟩
  rw [safe_signAuth_bind]
  refine ⟨trivial, fun s _ => ?_⟩
  rw [Prog.safe_ofExcept_bind]
  refine ⟨fun challenge hch => ?_, fun _ _ => unread _ ⟨rfl, rfl⟩ rfl⟩
  obtain ⟨rfl, -⟩ := encodeLengthPrefixed_ok.1 hch
  have hopen : ∀ a : Except Error Unit, ∃ h, h = [] ++ [⟨.admitKey key, .ok ()⟩] ++
      [⟨.randomNonce, nonce⟩] ++ [⟨.signAuth (authTranscript "listener" key identity.publicKey
        clientNonce nonce dialerId listenerId), s⟩] ++
      [⟨.write (KeyChallenge.new identity.publicKey.toHex nonce s).toFrame, a⟩] ∧
      Unsettled h ∧ received h = [] ∧ drawn h = [nonce] := by
    intro a
    refine ⟨_, rfl, ?_, rfl, rfl⟩
    simp [Unsettled, commits, verdicts, commitOf, acceptedOf]
  rw [safe_writeFrame_bind]
  refine ⟨by simp [VerdictDue], fun _ => ?_, fun e _ => ?_⟩
  swap
  · obtain ⟨h, hh, hu, hr, -⟩ := hopen (.error e)
    rw [← hh]
    exact unread h hu hr
  obtain ⟨h, hh, hu, hr, hd⟩ := hopen (.ok ())
  rw [← hh, safe_readLengthPrefixed_bind]
  have hread : ∀ r : Except Error Frame,
      Unsettled (h ++ [⟨.read MAX_CONTROL_MESSAGE_SIZE, r⟩]) :=
    fun r => hu.quiet rfl rfl
  refine ⟨trivial, fun frame _ => ?_,
    fun e _ => unread _ (hread _) (by rw [received_append, hr]; rfl)⟩
  -- what verifies is what was read under the nonce that was drawn
  have hproof : ∀ key' nonce' proof', C.parseKey clientPublicKey = some key' →
      ProofVerified C identity clientNonce dialerId listenerId
        (h ++ [⟨.read MAX_CONTROL_MESSAGE_SIZE, .ok frame⟩]) key' nonce' proof' →
      decodeKeyProof frame = .ok proof' ∧ C.verifyAuthSignature key (authTranscript "dialer" key
        identity.publicKey clientNonce nonce dialerId listenerId) proof'.proof = .ok () := by
    intro key' nonce' proof' hkey' hv
    obtain rfl : key = key' := Option.some.inj (hkey.symm.trans hkey')
    obtain ⟨frame', hmem, hdec⟩ := hv.received
    have hframe := mem_received hmem
    have hnonce := mem_drawn hv.drawn
    rw [received_append, hr] at hframe
    rw [drawn_append, hd] at hnonce
    obtain rfl : frame' = frame := List.mem_singleton.1 hframe
    obtain rfl : nonce' = nonce := List.mem_singleton.1 hnonce
    exact ⟨hdec, hv.proved⟩
  rw [Prog.safe_ofExcept_bind]
  refine ⟨fun proof hdec => ?_, fun e hdec => .inl ⟨hread _, fun key' nonce' proof' hkey' hv => ?_⟩⟩
  swap
  · rw [(hproof key' nonce' proof' hkey' hv).1] at hdec
    simp at hdec
  replace hdec : decodeKeyProof frame = .ok proof := withContext_eq_ok.1 hdec
  rw [Prog.safe_ofExcept_bind]
  refine ⟨fun _ _ => ?_, fun e hver => .inl ⟨hread _, fun key' nonce' proof' hkey' hv => ?_⟩⟩
  swap
  · obtain ⟨hdec', hver'⟩ := hproof key' nonce' proof' hkey' hv
    obtain rfl : proof = proof' := by simpa [hdec] using hdec'
    simp [hver'] at hver
  rw [safe_commitKey_bind]
  refine ⟨trivial, fun committed _ => ?_⟩
  obtain ⟨hcommits, hverdicts⟩ :=
    (hread (.ok frame)).asked (e := ⟨.commitKey key, committed⟩) rfl rfl
  rw [safe_ensure_bind]
  refine ⟨fun hc => ?_, fun hc => ?_⟩
  swap
  · subst hc
    exact .inr (.inl ⟨hcommits, hverdicts⟩)
  subst hc
  have haccept : encodeAuthResponse .accept = .ok AuthResponse.accept.toFrame :=
    encodeLengthPrefixed_ok.2 ⟨rfl, by decide +kernel⟩
  rw [haccept]
  simp only [Prog.ofExcept_ok, Prog.ret_bind]
  rw [safe_writeFrame_bind]
  have hsettled : ∀ a : Except Error Unit, Settled C identity clientPublicKey clientNonce dialerId
      listenerId (h ++ [⟨.read MAX_CONTROL_MESSAGE_SIZE, .ok frame⟩] ++ [⟨.commitKey key, true⟩] ++
        [⟨.write AuthResponse.accept.toFrame, a⟩]) := by
    intro a
    refine .inr (.inr ⟨?_, _, _, a, rfl, hverdicts, bool_authAccept⟩)
    rw [commits_append, hcommits]
    rfl
  exact ⟨fun _ => by rw [hcommits]; exact List.mem_singleton_self _, fun _ => hsettled _,
    fun _ _ => hsettled _⟩

/-- A listener that verified the dialer's proof and lost the claim.

**Proof sketch.** The program is followed operation by operation, up to the claim that is refused.
-/
lemma listener_loses {me : Identity} {K : PublicKey} {key nonce did lid own sl sd : String}
    (hparse : C.parseKey key = some K)
    (hver : C.verifyAuthSignature K
      (authTranscript "dialer" K me.publicKey nonce own did lid) sd = .ok ())
    (hch : (KeyChallenge.new me.publicKey.toHex own sl).toFrame.size ≤ MAX_CONTROL_MESSAGE_SIZE) :
    Prog.Follows (listenerHandshake C me key nonce did lid)
      [⟨.admitKey K, .ok ()⟩, ⟨.randomNonce, own⟩,
        ⟨.signAuth (authTranscript "listener" K me.publicKey nonce own did lid), sl⟩,
        ⟨.write (KeyChallenge.new me.publicKey.toHex own sl).toFrame, .ok ()⟩,
        ⟨.read MAX_CONTROL_MESSAGE_SIZE, .ok (KeyProof.new sd).toFrame⟩, ⟨.commitKey K, false⟩]
      (.fail (.msg "another application identity paired first")) := by
  refine follows_ofExcept (b := K) (by simp [hparse]) (follows_admitKey (follows_randomNonce ?_))
  refine follows_signAuth (follows_ofExcept (encodeLengthPrefixed_ok.2 ⟨rfl, hch⟩) ?_)
  refine follows_writeFrame (follows_readLengthPrefixed ?_)
  refine follows_ofExcept (b := KeyProof.new sd) (by rw [decodeKeyProof_toFrame]; rfl) ?_
  exact follows_ofExcept hver (follows_commitKey (.nil _))

end KeyAuth

/-! ## The PIN half -/

namespace PinAuth

variable {C : Crypto}

/-- The dialer's confirmations, read by a listener that waited for them, match one of its slots. The
listener had got as far as its last turn, and the frame that it read there confirmed a key of its
own. -/
def ProofMatched (C : Crypto) (candidates : List PinPassword) (pakes : List String) (d l : String)
    (h : List HandshakeEvt) : Prop :=
  ∃ h₁ slots frame response h₂, h = h₁ ++ ⟨.read MAX_CONTROL_MESSAGE_SIZE, .ok frame⟩ :: h₂ ∧
    (listenerHandshake C candidates pakes d l).Follows h₁ (listenerVerify C slots d l) ∧
    decodePinResponse frame = .ok response ∧ response.confirms.length = PAKE_SLOTS ∧
    (matchSlot C d l 0 slots response.confirms).isSome

/-- A listener whose dialer proved the PIN asks for the claim. -/
lemma ProofMatched.asked {candidates : List PinPassword} {pakes : List String} {d l : String}
    {h : List HandshakeEvt} {q : Handshake Unit} (hm : ProofMatched C candidates pakes d l h)
    (hf : (listenerHandshake C candidates pakes d l).Follows h q) (hq : q.Ended) :
    commits h ≠ [] := by
  obtain ⟨h₁, slots, frame, response, h₂, rfl, hwaits, hdec, hlen, hmatch⟩ := hm
  obtain ⟨slot, hslot⟩ := Option.isSome_iff_exists.1 hmatch
  obtain ⟨_, _, ⟨⟩, hok, -⟩ := ended_readLengthPrefixed (hf.rest hwaits) hq
  have hverdict := followed_ensure (followed_ofExcept (b := response) (hok frame rfl)
    (by rw [hdec]; rfl)) (decide_eq_true hlen)
  rw [hslot] at hverdict
  obtain ⟨b, h₃, rfl, -⟩ := ended_commitPin hverdict hq
  simp [commits, commitOf]

/-- How a complete run of the PIN half ends: before the claim and without a verdict, or with the
verdict it owes. -/
def Settled (h : List HandshakeEvt) : Prop :=
  commits h = [] ∨ ∃ b, commits h = [b] ∧ Delivered h b

/-- A rejection is delivered.

**Proof sketch.** The rejection fits in a frame, so that it is written; nothing is claimed on the
way. -/
lemma reject_settles {reason error : String} {h : List HandshakeEvt}
    (hfits : (PinConfirm.rejected reason).toFrame.size ≤ MAX_CONTROL_MESSAGE_SIZE)
    (hnone : verdicts h = []) :
    Prog.Safe (fun _ _ => True) VerdictDue (fun h' _ => commits h' = commits h ∧ Delivered h' false)
      h (reject reason error) := by
  unfold reject
  have hencode : encodePinConfirm (.rejected reason) = .ok (PinConfirm.rejected reason).toFrame :=
    encodeLengthPrefixed_ok.2 ⟨rfl, hfits⟩
  rw [hencode]
  simp only [Prog.ofExcept_ok, Prog.ret_bind]
  rw [safe_writeFrame_bind]
  have hlast : ∀ a : Except Error Unit,
      commits (h ++ [⟨.write (PinConfirm.rejected reason).toFrame, a⟩]) = commits h ∧
      Delivered (h ++ [⟨.write (PinConfirm.rejected reason).toFrame, a⟩]) false := by
    intro a
    refine ⟨?_, _, _, a, rfl, hnone, bool_pinRejected reason⟩
    rw [commits_append]
    exact List.append_nil _
  exact ⟨by simp [VerdictDue], fun _ => hlast _, fun e _ => hlast _⟩

/-- **The verdict is delivered**, whatever the claim is answered.

**Proof sketch.** By following the program. A slot that did not match is turned away, and otherwise
the claim is asked for once; either verdict fits in a control message, so it is written. -/
lemma verdict_settles (hmac : ∀ k m, (jsonString (C.b64Encode (C.hmac k m))).utf8ByteSize ≤ 4096)
    {slots : List Slot} {d l : String} {h : List HandshakeEvt} (hu : Unsettled h) {m : Option ℕ}
    (hm : ∀ slot, m = some slot → slot < PAKE_SLOTS) :
    Prog.Safe (fun _ _ => True) VerdictDue (fun h _ => Settled h) h (verdict C slots d l m) := by
  rcases m with _ | slot
  · have hfits : (PinConfirm.rejected "PIN authentication failed").toFrame.size ≤
        MAX_CONTROL_MESSAGE_SIZE := by decide +kernel
    exact (reject_settles hfits hu.2).imp fun h' r hr => .inl (hr.1.trans hu.1)
  simp only [verdict]
  rw [safe_commitPin_bind]
  refine ⟨trivial, fun b _ => ?_⟩
  obtain ⟨hcommits, hverdicts⟩ := hu.asked (e := ⟨.commitPin, b⟩) rfl rfl
  rcases b with _ | _
  · rw [if_neg Bool.false_ne_true]
    have hfits : (PinConfirm.rejected "listener already paired with another device").toFrame.size ≤
        MAX_CONTROL_MESSAGE_SIZE := by decide +kernel
    exact (reject_settles hfits hverdicts).imp
      fun h' r hr => .inr ⟨false, hr.1.trans hcommits, hr.2⟩
  · rw [if_pos rfl]
    unfold accept
    have hencode : encodePinConfirm (.accept slot (C.b64Encode (confirmMac C
        ((slots.map Slot.key).getD slot []) .listener slot d l))) = .ok (PinConfirm.accept slot
          (C.b64Encode (confirmMac C ((slots.map Slot.key).getD slot []) .listener slot d
            l))).toFrame :=
      encodeLengthPrefixed_ok.2 ⟨rfl, accept_fits (hm slot rfl) (hmac _ _)⟩
    simp only [hencode, Prog.ofExcept_ok, Prog.ret_bind]
    refine ⟨fun _ => by rw [hcommits]; exact List.mem_singleton_self _, fun r _ => ?_⟩
    have hlast : Settled (h ++ [⟨.commitPin, true⟩] ++ [⟨.write (PinConfirm.accept slot
        (C.b64Encode (confirmMac C ((slots.map Slot.key).getD slot []) .listener slot d
          l))).toFrame, r⟩]) := by
      refine .inr ⟨true, ?_, _, _, r, rfl, hverdicts, bool_pinAccept _ _⟩
      rw [commits_append, hcommits]
      rfl
    rcases r with e | u
    · exact hlast
    · exact hlast

/-- One slot leaves the run unsettled.

**Proof sketch.** The program of a slot writes nothing and claims nothing. -/
lemma listenerSlot_unsettled {candidates : List PinPassword} {pakes : List String} {d l : String}
    {slot : ℕ} {h : List HandshakeEvt} (hu : Unsettled h) :
    Prog.Safe (fun _ _ => True) VerdictDue (fun h r => Unsettled h ∧ ∀ s : Slot, r = .ok s → True) h
      (listenerSlot C candidates pakes d l slot) := by
  unfold listenerSlot slotPassword
  refine Prog.Safe.bind (Q := fun h _ => Unsettled h) ?_ ?_ fun _ _ hQ => ⟨hQ, fun _ _ => trivial⟩
  · split
    · exact hu
    · exact ⟨trivial, fun (pw : PinPassword) _ => hu.quiet rfl rfl⟩
  rintro h' ⟨real, pw⟩ hu'
  show Prog.Safe _ _ _ _ (randomScalar >>= fun y => _)
  rw [safe_randomScalar_bind]
  refine ⟨trivial, fun y _ => ?_⟩
  have hu'' : Unsettled (h' ++ [⟨.randomScalar, y⟩]) := hu'.quiet rfl rfl
  rw [Prog.safe_ofExcept_bind]
  refine ⟨fun msgA _ => ?_, fun _ _ => ⟨hu'', fun _ _ => trivial⟩⟩
  rw [Prog.safe_ofExcept_bind]
  exact ⟨fun key _ => ⟨hu'', fun _ _ => trivial⟩, fun _ _ => ⟨hu'', fun _ _ => trivial⟩⟩

/-- **How the PIN half ends.**

**Proof sketch.** Up to the claim no slot and no frame settles anything. A slot that matches is in
range, since there are as many slots as there are PAKE messages. -/
theorem listener_settles (hmac : ∀ k m, (jsonString (C.b64Encode (C.hmac k m))).utf8ByteSize ≤ 4096)
    (candidates : List PinPassword) (pakes : List String) (d l : String) :
    Prog.Safe (fun _ _ => True) VerdictDue (fun h _ => Settled h) []
      (listenerHandshake C candidates pakes d l) := by
  unfold listenerHandshake
  rw [safe_ensure_bind]
  refine ⟨fun _ => ?_, fun _ => .inl rfl⟩
  refine (Prog.Safe.each (N := Unsettled) (P := fun _ (_ : Slot) => True)
    (fun slot _ h hN => listenerSlot_unsettled hN) ⟨rfl, rfl⟩).bind ?_
    fun _ _ hQ => .inl hQ.1.1
  intro h slots hQ
  have hlen : slots.length = PAKE_SLOTS := by simpa using (hQ.2 slots rfl).length_eq.symm
  rw [Prog.safe_ofExcept_bind]
  refine ⟨fun challenge hchallenge => ?_, fun _ _ => .inl hQ.1.1⟩
  obtain ⟨rfl, -⟩ := encodeLengthPrefixed_ok.1 hchallenge
  have hwrite : ∀ a : Except Error Unit,
      Unsettled (h ++ [⟨.write (PinChallenge.new (slots.map Slot.msg)).toFrame, a⟩]) :=
    fun a => hQ.1.quiet rfl (bool_pinChallenge (slots.map Slot.msg))
  rw [safe_writeFrame_bind]
  refine ⟨by simp [VerdictDue], fun _ => ?_, fun _ _ => .inl (hwrite _).1⟩
  unfold listenerVerify
  rw [safe_readLengthPrefixed_bind]
  refine ⟨trivial, fun frame _ => ?_, fun _ _ => .inl ((hwrite _).quiet rfl rfl).1⟩
  have hread : Unsettled (h ++ [⟨.write (PinChallenge.new (slots.map Slot.msg)).toFrame, .ok ()⟩] ++
      [⟨.read MAX_CONTROL_MESSAGE_SIZE, .ok frame⟩]) := (hwrite _).quiet rfl rfl
  rw [Prog.safe_ofExcept_bind]
  refine ⟨fun response _ => ?_, fun _ _ => .inl hread.1⟩
  rw [safe_ensure_bind]
  refine ⟨fun _ => verdict_settles hmac hread fun slot hslot => ?_, fun _ => .inl hread.1⟩
  obtain ⟨-, s, _, hs, -⟩ := matchSlot_eq_some C hslot
  rw [Nat.sub_zero] at hs
  have := (List.getElem?_eq_some_iff.1 hs).1
  omega

end PinAuth

/-! ## Both halves -/

/-- **The verdict of both listeners.** In every run of either half, an acceptance is written only
after the claim was granted. In every complete run in which the dialer's proof verified, the claim
is asked for once. The PIN half then closes with its one verdict frame, which says what the claim
was answered. The key half does so if and only if the claim was granted. The primitives' MACs are
small texts.

**Proof sketch.** Both programs are followed to their end. In the PIN handshake each answer of the
claim is followed by a verdict. In the key handshake a granted claim is, and a refused one ends the
run with an error, so that no verdict is written. -/
theorem commit_verdict_delivered (C : Crypto)
    (hmac : ∀ k m, (jsonString (C.b64Encode (C.hmac k m))).utf8ByteSize ≤ 4096) :
    (∀ identity clientPublicKey clientNonce d l h q,
      (KeyAuth.listenerHandshake C identity clientPublicKey clientNonce d l).Follows h q →
      (true ∈ verdicts h → true ∈ commits h) ∧
      (q.Ended → ∀ key nonce proof, C.parseKey clientPublicKey = some key →
        KeyAuth.ProofVerified C identity clientNonce d l h key nonce proof →
        ∃ b, commits h = [b] ∧ (Delivered h b ↔ b = true))) ∧
    (∀ candidates pakes d l h q, (PinAuth.listenerHandshake C candidates pakes d l).Follows h q →
      (true ∈ verdicts h → true ∈ commits h) ∧
      (q.Ended → PinAuth.ProofMatched C candidates pakes d l h →
        ∃ b, commits h = [b] ∧ Delivered h b)) := by
  constructor
  · intro identity clientPublicKey clientNonce d l h q hf
    have hsafe := KeyAuth.listener_settles C identity clientPublicKey clientNonce d l
    refine ⟨accepted_of_due hsafe hf (fun _ _ => trivial), fun hq key nonce proof hkey hv => ?_⟩
    obtain ⟨-, ⟨-, hno⟩ | ⟨hc, hnone⟩ | ⟨hc, hd⟩⟩ := hsafe.ended hf (fun _ _ => trivial) hq
    · exact absurd hv (hno key nonce proof hkey)
    · refine ⟨false, hc, fun hd => ?_, fun hb => by cases hb⟩
      rw [hd.verdicts_eq] at hnone
      cases hnone
    · exact ⟨true, hc, fun _ => rfl, fun _ => hd⟩
  · intro candidates pakes d l h q hf
    have hsafe := PinAuth.listener_settles hmac candidates pakes d l
    refine ⟨accepted_of_due hsafe hf (fun _ _ => trivial), fun hq hm => ?_⟩
    obtain ⟨-, hs⟩ := hsafe.ended hf (fun _ _ => trivial) hq
    exact hs.resolve_left (hm.asked hf hq)

namespace VerdictSample

/-- The primitives of the sample run, with a MAC of 32 zero bytes and its base64 text. -/
def crypto : Crypto :=
  { KeyAuth.Sample.crypto with
    hmac := fun _ _ => List.replicate 32 0
    b64Encode := fun b => String.ofList (List.replicate ((4 * b.length + 2) / 3) 'A') }

/-- The history of a listener that verified the dialer's proof and lost the claim. It has read a
proof that checks, and has not written a verdict yet. -/
def lostRace : List HandshakeEvt :=
  [⟨.admitKey KeyAuth.Sample.dialer, .ok ()⟩, ⟨.randomNonce, KeyAuth.Sample.listenerNonce⟩,
    ⟨.signAuth (KeyAuth.Sample.transcript "listener"), "sig-l"⟩,
    ⟨.write KeyAuth.Sample.challenge, .ok ()⟩,
    ⟨.read MAX_CONTROL_MESSAGE_SIZE, .ok KeyAuth.Sample.proof⟩,
    ⟨.commitKey KeyAuth.Sample.dialer, false⟩]

/-- The listening half of that run. -/
def listener : Handshake PublicKey :=
  KeyAuth.listenerHandshake crypto ⟨KeyAuth.Sample.listener⟩ KeyAuth.Sample.dialer.toHex
    KeyAuth.Sample.dialerNonce "id-d" "id-l"

/-- The listener of the lost race fails, and has written no verdict. -/
lemma lostRace_follows :
    listener.Follows lostRace (.fail (.msg "another application identity paired first")) :=
  KeyAuth.listener_loses crypto KeyAuth.Sample.parse_dialer
    (by simp [crypto, KeyAuth.Sample.crypto, KeyAuth.Sample.transcript]) (by decide +kernel)

/-- The dialer's proof verified. -/
lemma lostRace_verified : KeyAuth.ProofVerified crypto ⟨KeyAuth.Sample.listener⟩
    KeyAuth.Sample.dialerNonce "id-d" "id-l" lostRace KeyAuth.Sample.dialer
    KeyAuth.Sample.listenerNonce (.new "sig-d") where
  admitted := by simp [lostRace]
  drawn := by simp [lostRace]
  received := ⟨KeyAuth.Sample.proof, by simp [lostRace], decodeKeyProof_toFrame "sig-d"⟩
  proved := by
    simp [crypto, KeyAuth.Sample.crypto, KeyAuth.Sample.transcript, KeyProof.new]

/-- Every confirmation of the sample is 43 characters long. -/
lemma encoded_mac (k m : Bytes) :
    crypto.b64Encode (crypto.hmac k m) = String.ofList (List.replicate 43 'A') := by
  simp only [crypto, List.length_replicate]

end VerdictSample

/-- The listener that lost the claim asked for it once, and delivered no verdict. -/
theorem commit_verdict_delivered_sample :
    ∃ b, commits VerdictSample.lostRace = [b] ∧
      (Delivered VerdictSample.lostRace b ↔ b = true) := by
  have hmac : ∀ k m, (jsonString (VerdictSample.crypto.b64Encode
      (VerdictSample.crypto.hmac k m))).utf8ByteSize ≤ 4096 := by
    intro k m
    rw [VerdictSample.encoded_mac]
    decide +kernel
  have hkey := (commit_verdict_delivered VerdictSample.crypto hmac).1 ⟨KeyAuth.Sample.listener⟩
    KeyAuth.Sample.dialer.toHex KeyAuth.Sample.dialerNonce "id-d" "id-l" VerdictSample.lostRace _
    VerdictSample.lostRace_follows
  exact hkey.2 trivial KeyAuth.Sample.dialer KeyAuth.Sample.listenerNonce (.new "sig-d")
    KeyAuth.Sample.parse_dialer VerdictSample.lostRace_verified

/-- A dialer that proved its key and lost the race for the claim is told nothing. -/
theorem lost_race_untold :
    ∃ q, VerdictSample.listener.Follows VerdictSample.lostRace q ∧ q.Ended ∧
      KeyAuth.ProofVerified VerdictSample.crypto ⟨KeyAuth.Sample.listener⟩
        KeyAuth.Sample.dialerNonce "id-d" "id-l" VerdictSample.lostRace KeyAuth.Sample.dialer
        KeyAuth.Sample.listenerNonce (.new "sig-d") ∧
      commits VerdictSample.lostRace = [false] ∧ verdicts VerdictSample.lostRace = [] := by
  refine ⟨_, VerdictSample.lostRace_follows, trivial, VerdictSample.lostRace_verified, rfl, ?_⟩
  decide +kernel

end Duocb
