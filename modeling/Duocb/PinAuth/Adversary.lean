import Duocb.PinAuth.Agreement
import Mathlib.Data.List.Forall2

set_option relaxedAutoImplicit false
set_option autoImplicit false

/-!
# The PIN handshake against an arbitrary peer

Each half alone, with every answer of the stream chosen by a peer that follows no protocol. The
listener's side needs no assumption on the primitives: what it does is read off its program. For
the dialer's side the peer is a symbolic one: whatever it sends it can compute from the passwords
it knows, from what this dialer has told it, and from all confirmations of other sessions. Among
these are the sessions between other node ids in which somebody plays this dialer's own messages
back: a peer that relays them to the device with the PIN gets every answer of that device, and is
refused because the node ids stand in the key.

## Main definitions

* `Duocb.PinAuth.Verified` — a real slot's confirmation verified.
* `Duocb.PinAuth.Sent` — the messages a dialer sent, slot by slot.
* `Duocb.PinAuth.Knows` — what a peer can compute.

## Main results

* `Duocb.PinAuth.listener_safe` — the claim is asked for once, and only for a verified real slot.
* `Duocb.PinAuth.dialer_peer_knows` — a dialer that accepts was answered by a peer that knows its
  PIN.
* `Duocb.PinAuth.pin_handshake_agreement` — the two halves agree over a faithful stream, and each
  is safe against any peer.
-/

namespace Duocb.PinAuth

variable {C : Crypto}

/-! ## The listener -/

/-- A slot of the listener verified in the history `h`: it runs one of the candidates, its key comes
from the request that was read, and a response was read that confirms this key. -/
def Verified (C : Crypto) (candidates : List PinPassword) (d l : String) (h : List HandshakeEvt)
    (slot : ℕ) : Prop :=
  slot < PAKE_SLOTS ∧ ∃ (pw : PinPassword) (y : ℕ) (key : Bytes) (request response : Frame)
    (version : ℕ) (pakes : List String) (msgA : Bytes) (answer : PinResponse) (confirm : String),
    candidates[slot]? = some pw ∧
    ⟨.read MAX_CONTROL_MESSAGE_SIZE, .ok request⟩ ∈ h ∧
    decodeAuthRequest request = .ok (.pin version pakes) ∧
    C.b64Decode (pakes.getD slot "") = some msgA ∧
    C.pakeFinishB pw (pakeIdentities slot d l).1 (pakeIdentities slot d l).2 y msgA = .ok key ∧
    ⟨.read MAX_CONTROL_MESSAGE_SIZE, .ok response⟩ ∈ h ∧
    decodePinResponse response = .ok answer ∧
    answer.confirms[slot]? = some confirm ∧
    C.b64Decode confirm = some (confirmMac C key .dialer slot d l)

/-- What stays verified when the history grows. -/
lemma Verified.mono {candidates : List PinPassword} {d l : String} {h : List HandshakeEvt}
    {slot : ℕ} (hv : Verified C candidates d l h slot) (h' : List HandshakeEvt) :
    Verified C candidates d l (h ++ h') slot := by
  obtain ⟨hslot, pw, y, key, request, response, version, pakes, msgA, answer, confirm, hcand, hreq,
    hdec, hA, hkey, hresp, hans⟩ := hv
  exact ⟨hslot, pw, y, key, request, response, version, pakes, msgA, answer, confirm, hcand,
    List.mem_append_left _ hreq, hdec, hA, hkey, List.mem_append_left _ hresp, hans⟩

/-- What the listener owes before each operation: the claim is asked for once and for a verified
slot, and an acceptance names a verified slot and comes after the claim was granted. -/
def ListenerDue (C : Crypto) (candidates : List PinPassword) (d l : String)
    (h : List HandshakeEvt) : Op → Prop
  | .commitPin => (∀ e ∈ h, e.1 ≠ .commitPin) ∧ ∃ slot, Verified C candidates d l h slot
  | .write frame => ∀ slot mac, frame = (PinConfirm.accept slot mac).toFrame →
      ⟨.commitPin, true⟩ ∈ h ∧ Verified C candidates d l h slot
  | _ => True

/-- What a listener that returned has done. -/
def ListenerDid (C : Crypto) (candidates : List PinPassword) (d l : String)
    (h : List HandshakeEvt) (r : Except Error Unit) : Prop :=
  r = .ok () → ∃ slot mac, Verified C candidates d l h slot ∧ ⟨.commitPin, true⟩ ∈ h ∧
    ⟨.write (PinConfirm.accept slot mac).toFrame, .ok ()⟩ ∈ h

/-- Every answer the stream and the host's policy may give. -/
def AnyAnswer : (o : Op) → Ans o → Prop := fun _ _ => True

/-- A rejection accepts nobody. -/
lemma reject_safe (candidates : List PinPassword) (d l reason error : String)
    (h : List HandshakeEvt) :
    Prog.Safe AnyAnswer (ListenerDue C candidates d l) (ListenerDid C candidates d l) h
      (reject reason error) := by
  unfold reject
  rw [Prog.safe_ofExcept_bind]
  refine ⟨fun frame hframe => ?_, fun _ _ => by simp [ListenerDid]⟩
  rw [safe_writeFrame_bind]
  refine ⟨fun slot mac heq => ?_, fun _ => by simp [ListenerDid], fun _ _ => by simp [ListenerDid]⟩
  obtain ⟨rfl, -⟩ := encodeLengthPrefixed_ok.1 hframe
  simp [PinConfirm.rejected, PinConfirm.accept, PinConfirm.toFrame] at heq

/-- The verdict on a verified slot.

**Proof sketch.** By following the program. A slot that did not match is turned away; a slot that
did has verified, so the claim may be asked for, and only a granted claim is followed by an
acceptance. -/
lemma verdict_safe {candidates : List PinPassword} {d l : String} {slots : List Slot}
    {h : List HandshakeEvt} (hnone : ∀ e ∈ h, e.1 ≠ .commitPin) {m : Option ℕ}
    (hm : ∀ slot, m = some slot → Verified C candidates d l h slot) :
    Prog.Safe AnyAnswer (ListenerDue C candidates d l) (ListenerDid C candidates d l) h
      (verdict C slots d l m) := by
  rcases m with _ | slot
  · exact reject_safe candidates d l "PIN authentication failed"
      "no recent PIN matched the dialer's PAKE confirmation (wrong or expired PIN)" h
  have hv := hm slot rfl
  simp only [verdict]
  rw [safe_commitPin_bind]
  refine ⟨⟨hnone, slot, hv⟩, fun b _ => ?_⟩
  rcases b with _ | _
  · exact reject_safe candidates d l "listener already paired with another device"
      "valid PIN but the listener paired with another device first" _
  rw [if_pos rfl]
  unfold accept
  rw [Prog.safe_ofExcept_bind]
  refine ⟨fun frame hframe => ?_, fun _ _ => by simp [ListenerDid]⟩
  obtain ⟨rfl, -⟩ := encodeLengthPrefixed_ok.1 hframe
  refine ⟨fun slot' mac heq => ?_, fun (r : Except Error Unit) _ => ?_⟩
  · obtain rfl : slot = slot' := by
      simp [PinConfirm.accept, PinConfirm.toFrame, optField] at heq
      exact heq.1
    exact ⟨by simp, hv.mono _⟩
  · rcases r with e | u
    · simp [Prog.ofExcept, ListenerDid]
    · exact fun _ => ⟨slot, C.b64Encode (confirmMac C ((slots.map Slot.key).getD slot []) .listener
        slot d l), (hv.mono _).mono _, by simp, by simp⟩

/-- A real slot of the listener: its candidate and its key. -/
def RealSlot (C : Crypto) (candidates : List PinPassword) (pakes : List String) (d l : String)
    (slot : ℕ) (s : Slot) : Prop :=
  s.real = true → ∃ pw y msgA, candidates[slot]? = some pw ∧
    C.b64Decode (pakes.getD slot "") = some msgA ∧
    C.pakeFinishB pw (pakeIdentities slot d l).1 (pakeIdentities slot d l).2 y msgA = .ok s.key

/-- A history with the opening request and without a claim. -/
def Opened (request : Frame) (h : List HandshakeEvt) : Prop :=
  ⟨.read MAX_CONTROL_MESSAGE_SIZE, .ok request⟩ ∈ h ∧ ∀ e ∈ h, e.1 ≠ .commitPin

/-- Decoding a wire field succeeds as the decoder does. -/
lemma decodeB64_eq_ok {value what : String} {b : Bytes} :
    decodeB64 C value what = .ok b ↔ C.b64Decode value = some b := by
  unfold decodeB64
  rcases C.b64Decode value with _ | b' <;> simp

/-- Naming the slot in an error changes no key. -/
lemma finishError_eq_ok {slot : ℕ} {r : Except Error Bytes} {k : Bytes} :
    finishError slot r = .ok k ↔ r = .ok k := by
  unfold finishError
  rcases r with e | k' <;> simp [Except.mapError]

/-- One slot keeps the history open, and a real one runs its candidate.

**Proof sketch.** By following the program: a password is the candidate of the slot or a random one,
a real slot knows which, and drawing a scalar and finishing leave the history open. -/
lemma listenerSlot_safe (candidates : List PinPassword) (pakes : List String) (d l : String)
    (slot : ℕ) {request : Frame} {h : List HandshakeEvt} (hN : Opened request h) :
    Prog.Safe AnyAnswer (ListenerDue C candidates d l) (fun h r => Opened request h ∧
      ∀ s, r = .ok s → RealSlot C candidates pakes d l slot s) h
      (listenerSlot C candidates pakes d l slot) := by
  have grow : ∀ {h : List HandshakeEvt} (e : HandshakeEvt), Opened request h →
      e.1 ≠ .commitPin → Opened request (h ++ [e]) := fun e hN he =>
    ⟨List.mem_append_left _ hN.1, fun e' he' => by
      rcases List.mem_append.1 he' with he' | he'
      · exact hN.2 e' he'
      · exact List.mem_singleton.1 he' ▸ he⟩
  unfold listenerSlot slotPassword
  refine Prog.Safe.bind (Q := fun h r => Opened request h ∧ ∀ real pw, r = .ok (real, pw) →
    real = true → candidates[slot]? = some pw) ?_ ?_ fun _ _ hQ => ⟨hQ.1, fun _ hs => by simp at hs⟩
  · split
    · rename_i material hmat
      exact ⟨hN, by simp [hmat]⟩
    · exact ⟨trivial, fun (pw : PinPassword) _ => ⟨grow _ hN (by simp), by simp⟩⟩
  rintro h' ⟨real, pw⟩ ⟨hN', hreal⟩
  show Prog.Safe _ _ _ _ (randomScalar >>= fun y => _)
  rw [safe_randomScalar_bind]
  refine ⟨trivial, fun y _ => ?_⟩
  have hN'' := grow ⟨.randomScalar, y⟩ hN' (by simp)
  rw [Prog.safe_ofExcept_bind]
  refine ⟨fun msgA hA => ?_, fun _ _ => ⟨hN'', fun _ hs => by simp at hs⟩⟩
  rw [Prog.safe_ofExcept_bind]
  refine ⟨fun key hkey => ⟨hN'', ?_⟩, fun _ _ => ⟨hN'', fun _ hs => by simp at hs⟩⟩
  rintro _ ⟨⟩ hr
  exact ⟨pw, y, msgA, hreal _ _ rfl hr, decodeB64_eq_ok.1 hA, finishError_eq_ok.1 hkey⟩

/-- The listening half from the request on, whatever came before it.

**Proof sketch.** By following the program. The slots are run one after the other and keep the
history open, the confirmations are checked against them, and the verdict is the lemma above. -/
lemma listenerHandshake_safe (candidates : List PinPassword) (d l : String) {request : Frame}
    {version : ℕ} {pakes : List String} {h : List HandshakeEvt} (hN : Opened request h)
    (hrequest : decodeAuthRequest request = .ok (.pin version pakes)) :
    Prog.Safe AnyAnswer (ListenerDue C candidates d l) (ListenerDid C candidates d l) h
      (listenerHandshake C candidates pakes d l) := by
  have fails : ∀ (h : List HandshakeEvt) (e : Error),
      ListenerDid C candidates d l h (.error e) := fun _ _ => by simp [ListenerDid]
  unfold listenerHandshake
  rw [safe_ensure_bind]
  refine ⟨fun _ => ?_, fun _ => fails _ _⟩
  refine (Prog.Safe.each (N := Opened request) (P := RealSlot C candidates pakes d l)
    (fun slot _ h hN => listenerSlot_safe candidates pakes d l slot hN) hN).bind ?_
    fun _ _ _ => fails _ _
  intro h slots hQ
  have hN := hQ.1
  have hslots := hQ.2 slots rfl
  rw [Prog.safe_ofExcept_bind]
  refine ⟨fun challenge hchallenge => ?_, fun _ _ => fails _ _⟩
  obtain ⟨rfl, -⟩ := encodeLengthPrefixed_ok.1 hchallenge
  rw [safe_writeFrame_bind]
  refine ⟨fun slot mac heq => ?_, fun _ => ?_, fun _ _ => fails _ _⟩
  · simp [PinChallenge.new, PinConfirm.accept, PinConfirm.toFrame, PinChallenge.toFrame] at heq
  unfold listenerVerify
  rw [safe_readLengthPrefixed_bind]
  refine ⟨trivial, fun responseFrame _ => ?_, fun _ _ => fails _ _⟩
  rw [Prog.safe_ofExcept_bind]
  refine ⟨fun response hresponse => ?_, fun _ _ => fails _ _⟩
  replace hresponse : decodePinResponse responseFrame = .ok response :=
    withContext_eq_ok.1 hresponse
  rw [safe_ensure_bind]
  refine ⟨fun _ => verdict_safe (fun e he => ?_) fun slot hmatch => ?_,
    fun _ => fails _ _⟩
  · simp only [List.mem_append, List.mem_singleton] at he
    rcases he with (he | rfl) | rfl
    · exact hN.2 e he
    · simp
    · simp
  obtain ⟨-, s, c, hs, hc, hreal, hmac⟩ := matchSlot_eq_some C hmatch
  rw [Nat.sub_zero] at hs hc
  obtain ⟨hlt, hs⟩ := List.getElem?_eq_some_iff.1 hs
  have hlen : slots.length = PAKE_SLOTS := by simpa using hslots.length_eq.symm
  have hspec := List.forall₂_iff_get.1 hslots |>.2 slot (by simpa [hlen] using hlt) hlt
  simp only [List.get_eq_getElem, List.getElem_range, hs] at hspec
  obtain ⟨pw, y, msgA, hcand, hA, hkey⟩ := hspec hreal
  exact ⟨by omega, pw, y, s.key, request, responseFrame, version, pakes, msgA, response, c,
    hcand, by simp [hN.1], hrequest, hA, hkey, by simp, hresponse, hc, hmac⟩

/-- **The listener against any peer.**

**Proof sketch.** The request is read first, and is a request for a PIN; from there on it is the
lemma above. -/
lemma listener_safe (candidates : List PinPassword) (d l : String) :
    Prog.Safe AnyAnswer (ListenerDue C candidates d l) (ListenerDid C candidates d l) []
      (listenerSession C candidates d l) := by
  have fails : ∀ (h : List HandshakeEvt) (e : Error),
      ListenerDid C candidates d l h (.error e) := fun _ _ => by simp [ListenerDid]
  unfold listenerSession
  rw [safe_readLengthPrefixed_bind]
  refine ⟨trivial, fun requestFrame _ => ?_, fun _ _ => fails _ _⟩
  rw [Prog.safe_ofExcept_bind]
  refine ⟨fun request hrequest => ?_, fun _ _ => fails _ _⟩
  rcases request with _ | ⟨version, pakes⟩
  · exact fails _ _
  replace hrequest : decodeAuthRequest requestFrame = .ok (.pin version pakes) :=
    withContext_eq_ok.1 hrequest
  exact listenerHandshake_safe candidates d l ⟨by simp, by simp⟩ hrequest

/-! ## The dialer -/

/-- The base64 fields of the PIN messages. They are what an ideal run makes of secrets; the other
fields of a message are the same for everybody. -/
def encodedTexts (fs : Frame) : List String :=
  fs.flatMap fun f =>
    if f.1 ∈ ["pakes", "confirms", "confirm"] then
      match f.2 with
      | .str s => [s]
      | .strs xs => xs
      | _ => []
    else []

/-- The bytes that a history's writes let the other side decode. -/
def Spoken (C : Crypto) (h : List HandshakeEvt) (b : Bytes) : Prop :=
  ∃ (frame : Frame) (a : Except Error Unit) (text : String), ⟨.write frame, a⟩ ∈ h ∧
    text ∈ encodedTexts frame ∧ C.b64Decode text = some b

/-- The message `b` stands for `slot` in a PIN request that the history `h` wrote. -/
def Sent (C : Crypto) (h : List HandshakeEvt) (slot : ℕ) (b : Bytes) : Prop :=
  ∃ (frame : Frame) (a : Except Error Unit) (version : ℕ) (pakes : List String) (text : String),
    ⟨.write frame, a⟩ ∈ h ∧ decodeAuthRequest frame = .ok (.pin version pakes) ∧
    pakes[slot]? = some text ∧ C.b64Decode text = some b

/-- What a peer of the dialer `d` can compute, where the dialer takes it for the node `l` and has
sent the messages `mine`, slot by slot.

It computes from the passwords it knows, from what this dialer has told it so far (`told`), from any
text that is neither a key nor a MAC, and from every dialer's confirmation there ever was. Moreover
it holds everything that is confirmed in any other instance of SPAKE2, under whatever password: in
every slot between other node ids, whoever's messages run there, this dialer's own included, and
between `d` and `l` in every slot with a message that is not the dialer's for that slot. -/
inductive Knows (I : Ideal C) (pws : PinPassword → Prop) (mine : ℕ → Bytes → Prop) (d l : String)
    (told : Bytes → Prop) : Bytes → Prop where
  /-- What the dialer told it. -/
  | told {b : Bytes} (hb : told b) : Knows I pws mine d l told b
  /-- A text that is neither a key nor a MAC. -/
  | plain {b : Bytes} (hmac : ∀ k m, b ≠ C.hmac k m)
      (hkey : ∀ pw idA idB mA mB, b ≠ I.key pw idA idB mA mB) : Knows I pws mine d l told b
  /-- A key of a password it knows. -/
  | key {pw : PinPassword} (hpw : pws pw) (idA idB mA mB : Bytes) :
      Knows I pws mine d l told (I.key pw idA idB mA mB)
  /-- A MAC under a key it knows. -/
  | mac {k : Bytes} (hk : Knows I pws mine d l told k) (m : Bytes) :
      Knows I pws mine d l told (C.hmac k m)
  /-- Any dialer's confirmation, of whatever session. -/
  | dialers (k : Bytes) (slot : ℕ) (d' l' : String) :
      Knows I pws mine d l told (confirmMac C k .dialer slot d' l')
  /-- Any MAC of an instance that is not one of this dialer's with `l`. -/
  | elsewhere {slot : ℕ} {d' l' : String} {mA : Bytes}
      (helse : ¬ (d' = d ∧ l' = l ∧ mine slot mA)) (pw : PinPassword) (mB m : Bytes) :
      Knows I pws mine d l told (C.hmac (I.key pw (pakeIdentities slot d' l').1
        (pakeIdentities slot d' l').2 mA mB) m)

/-- What a dialer tells: SPAKE2 messages, and confirmations of its own direction. -/
def Harmless (C : Crypto) (b : Bytes) : Prop :=
  (∃ pw x, b = C.pakeMsgA pw x) ∨ ∃ k slot d l, b = confirmMac C k .dialer slot d l

/-- The two directions never confirm with the same text. -/
lemma confirmText_dir_ne (slot slot' : ℕ) (d l d' l' : String) :
    confirmText .dialer slot d l ≠ confirmText .listener slot' d' l' := by
  intro h
  simp only [confirmText, Direction.asStr, utf8_inj, String.append_assoc] at h
  have hlists := congrArg String.toList h
  simp only [String.toList_append, List.append_cancel_left_eq] at hlists
  have hd : "dialer".toList = ['d', 'i', 'a', 'l', 'e', 'r'] := by decide
  have hl : "listener".toList = ['l', 'i', 's', 't', 'e', 'n', 'e', 'r'] := by decide
  simp [hd, hl] at hlists

/-- **What a peer without the password never knows**: a key of the password, and the listener's
confirmation under such a key in an instance of this dialer with `l`.

**Proof sketch.** Induction on how the peer came to know it. What the dialer tells is a message or a
confirmation of its own direction, which is neither. A MAC the peer makes itself needs the key, for
which the first part speaks. A MAC of another instance is one under another key, since a key
determines its slot, its node ids and the dialer's message. -/
lemma Knows.password {I : Ideal C} {pws : PinPassword → Prop} {mine : ℕ → Bytes → Prop}
    {d l : String} {told : Bytes → Prop} (htold : ∀ b, told b → Harmless C b) {b : Bytes}
    (hb : Knows I pws mine d l told b) :
    (∀ pw idA idB mA mB, b = I.key pw idA idB mA mB → pws pw) ∧
      ∀ pw slot mA mB, mine slot mA → b = confirmMac C (I.key pw (pakeIdentities slot d l).1
        (pakeIdentities slot d l).2 mA mB) .listener slot d l → pws pw := by
  induction hb with
  | told hb =>
    rcases htold _ hb with ⟨pw, x, rfl⟩ | ⟨k, slot, d', l', rfl⟩
    · exact ⟨fun _ _ _ _ _ he => (I.msgA_ne_key _ _ _ _ _ _ _ he).elim,
        fun _ _ _ _ _ he => (I.msgA_ne_hmac _ _ _ _ he).elim⟩
    · exact ⟨fun _ _ _ _ _ he => (I.hmac_ne_key _ _ _ _ _ _ _ he).elim,
        fun _ _ _ _ _ he => (confirmText_dir_ne _ _ _ _ _ _ (I.hmac_inj he).2).elim⟩
  | plain hmac hkey =>
    exact ⟨fun _ _ _ _ _ he => (hkey _ _ _ _ _ he).elim, fun _ _ _ _ _ he => (hmac _ _ he).elim⟩
  | key hpw idA idB mA mB =>
    exact ⟨fun _ _ _ _ _ he => (I.key_inj he).1 ▸ hpw,
      fun _ _ _ _ _ he => (I.hmac_ne_key _ _ _ _ _ _ _ he.symm).elim⟩
  | mac hk m ih =>
    exact ⟨fun _ _ _ _ _ he => (I.hmac_ne_key _ _ _ _ _ _ _ he).elim,
      fun _ _ _ _ _ he => ih.1 _ _ _ _ _ (I.hmac_inj he).1⟩
  | dialers k slot d' l' =>
    exact ⟨fun _ _ _ _ _ he => (I.hmac_ne_key _ _ _ _ _ _ _ he).elim,
      fun _ _ _ _ _ he => (confirmText_dir_ne _ _ _ _ _ _ (I.hmac_inj he).2).elim⟩
  | elsewhere helse pw mB m =>
    refine ⟨fun _ _ _ _ _ he => (I.hmac_ne_key _ _ _ _ _ _ _ he).elim,
      fun _ _ _ _ hmine he => ?_⟩
    -- one key, thus one slot, one pair of node ids and one message of the dialer
    obtain ⟨-, hA, hB, rfl, -⟩ := I.key_inj (I.hmac_inj he).1
    obtain ⟨rfl, rfl, rfl⟩ := pakeIdentities_inj hA hB
    exact (helse ⟨rfl, rfl, hmine⟩).elim

/-- What the dialer owes before each operation: what it writes is harmless. -/
def DialerDue (C : Crypto) (_ : List HandshakeEvt) : Op → Prop
  | .write frame => ∀ text ∈ encodedTexts frame, ∀ b, C.b64Decode text = some b → Harmless C b
  | _ => True

/-- What a dialer that returned has done: it read a verdict that names a slot and carries the
listener's confirmation under a key of its own password and of the message it sent for that slot. -/
def DialerDid (C : Crypto) (pin d l : String) (h : List HandshakeEvt) (r : Except Error Unit) :
    Prop :=
  r = .ok () → ∃ (pw : PinPassword) (x slot : ℕ) (msgB key : Bytes) (frame : Frame)
    (confirm : PinConfirm) (mac : String), C.deriveAuthKeyMaterial pin = .ok pw ∧
    slot < PAKE_SLOTS ∧ Sent C h slot (C.pakeMsgA pw x) ∧
    C.pakeFinishA pw (pakeIdentities slot d l).1 (pakeIdentities slot d l).2 x msgB = .ok key ∧
    ⟨.read MAX_CONTROL_MESSAGE_SIZE, .ok frame⟩ ∈ h ∧ decodePinConfirm frame = .ok confirm ∧
    confirm.slot = some slot ∧ confirm.confirm = some mac ∧
    C.b64Decode mac = some (confirmMac C key .listener slot d l)

/-- What finishing the slots gives for each of them.

**Proof sketch.** By induction on the slots: the first one is finished with its own number, and the
others with the numbers behind it. -/
lemma finishSlots_getElem? {pw : PinPassword} {d l : String} {base i : ℕ} {xs : List ℕ}
    {msgs : List String} {fin : List (Bytes × String)} {kc : Bytes × String}
    (h : finishSlots C pw d l base xs msgs = .ok fin) (hi : fin[i]? = some kc) :
    ∃ x msgB, xs[i]? = some x ∧ C.pakeFinishA pw (pakeIdentities (base + i) d l).1
      (pakeIdentities (base + i) d l).2 x msgB = .ok kc.1 ∧
      kc.2 = C.b64Encode (confirmMac C kc.1 .dialer (base + i) d l) := by
  fun_induction finishSlots C pw d l base xs msgs generalizing fin i with
  | case1 base x xs msg msgs ih =>
    simp only [bind_eq_ok, pure, Except.pure, Except.ok.injEq] at h
    obtain ⟨first, hfirst, rest, hrest, rfl⟩ := h
    rcases i with _ | i
    · obtain rfl : first = kc := by simpa using hi
      unfold finishSlot at hfirst
      simp only [bind_eq_ok, pure, Except.pure, Except.ok.injEq] at hfirst
      obtain ⟨msgB, -, key, hk, rfl⟩ := hfirst
      exact ⟨x, msgB, rfl, by simpa using finishError_eq_ok.1 hk, rfl⟩
    · obtain ⟨x', msgB, hx', hk, hc⟩ := ih hrest (by simpa using hi)
      rw [show base + (i + 1) = base + 1 + i by omega]
      exact ⟨x', msgB, by simpa using hx', hk, hc⟩
  | case2 base xs msgs =>
    obtain rfl : [] = fin := by simpa using h
    simp at hi

/-- As many slots are finished as there are scalars, when there are as many messages.

**Proof sketch.** By induction along the recursion: a slot that is finished is one more. -/
lemma finishSlots_length {pw : PinPassword} {d l : String} {base : ℕ} {xs : List ℕ}
    {msgs : List String} {fin : List (Bytes × String)} (hlen : xs.length = msgs.length)
    (h : finishSlots C pw d l base xs msgs = .ok fin) : fin.length = xs.length := by
  fun_induction finishSlots C pw d l base xs msgs generalizing fin with
  | case1 base x xs msg msgs ih =>
    simp only [bind_eq_ok, pure, Except.pure, Except.ok.injEq] at h
    obtain ⟨first, hfirst, rest, hrest, rfl⟩ := h
    simpa using ih (by simpa using hlen) hrest
  | case2 xs base msgs hne =>
    obtain rfl : [] = fin := by simpa using h
    rcases xs with _ | ⟨x, xs⟩
    · rfl
    rcases msgs with _ | ⟨m, msgs⟩
    · simp at hlen
    exact (hne _ _ _ _ rfl rfl).elim

/-- A verdict that passes the dialer's check.

**Proof sketch.** By the branches of the check; each of the others is an error. -/
lemma checkConfirm_eq_ok {keys : List Bytes} {d l : String} {confirm : PinConfirm}
    (h : checkConfirm C keys d l confirm = .ok ()) : ∃ slot mac, confirm.slot = some slot ∧
      slot < PAKE_SLOTS ∧ confirm.confirm = some mac ∧
      C.b64Decode mac = some (confirmMac C (keys.getD slot []) .listener slot d l) := by
  unfold checkConfirm at h
  rcases ha : confirm.accepted with _ | _
  · simp [ha] at h
  rcases hs : confirm.slot with _ | slot
  · simp [ha, hs] at h
  by_cases hlt : slot < PAKE_SLOTS
  · rcases hc : confirm.confirm with _ | mac
    · simp [ha, hs, hlt, hc] at h
    rcases hm : C.b64Decode mac with _ | b
    · simp [ha, hs, hlt, hc, decodeB64, hm, bind, Except.bind] at h
    by_cases heq : b = confirmMac C (keys.getD slot []) .listener slot d l
    · exact ⟨slot, mac, rfl, hlt, rfl, by rw [hm, heq]⟩
    · rw [List.getD_eq_getElem?_getD] at heq
      simp [ha, hs, hlt, hc, decodeB64, hm, bind, Except.bind, heq] at h
  · simp [ha, hs, hlt] at h

/-- **The dialer against any peer.**

**Proof sketch.** By following the program. The confirmation that the dialer accepts is the one of
the slot that the verdict names, made with the key that this slot was finished with. -/
lemma dialer_safe (I : Ideal C) (pin d l : String) :
    Prog.Safe AnyAnswer (DialerDue C) (DialerDid C pin d l) [] (dialerHandshake C pin d l) := by
  have fails : ∀ (h : List HandshakeEvt) (e : Error),
      DialerDid C pin d l h (.error e) := fun _ _ => by simp [DialerDid]
  unfold dialerHandshake
  rw [Prog.safe_ofExcept_bind]
  refine ⟨fun pw hpw => ?_, fun _ _ => fails _ _⟩
  refine (Prog.Safe.each (N := fun _ => True)
    (P := fun _ s => s.2 = C.b64Encode (C.pakeMsgA pw s.1)) (fun _ _ h _ => ?_)
    trivial).bind ?_ fun _ _ _ => fails _ _
  · refine ⟨trivial, fun (x : ℕ) _ => ⟨trivial, ?_⟩⟩
    rintro _ ⟨⟩
    rfl
  intro h states hQ
  have hstates := hQ.2 states rfl
  have hlen : states.length = PAKE_SLOTS := by simpa using hstates.length_eq.symm
  -- every state holds a scalar and the message that goes with it
  have hmsg : ∀ s ∈ states, s.2 = C.b64Encode (C.pakeMsgA pw s.1) := fun s hs => by
    obtain ⟨i, hi, rfl⟩ := List.mem_iff_getElem.1 hs
    exact (List.forall₂_iff_get.1 hstates).2 i (by simpa [hlen] using hi) hi
  rw [Prog.safe_ofExcept_bind]
  refine ⟨fun request hrequest => ?_, fun _ _ => fails _ _⟩
  obtain ⟨rfl, -⟩ := encodeLengthPrefixed_ok.1 hrequest
  have htexts : encodedTexts (AuthRequest.pinRequest (states.map Prod.snd)).toFrame =
      states.map Prod.snd := by
    simp [encodedTexts, AuthRequest.pinRequest, AuthRequest.toFrame]
  rw [safe_writeFrame_bind]
  refine ⟨fun text htext b hb => ?_, fun _ => ?_, fun _ _ => fails _ _⟩
  · rw [htexts] at htext
    obtain ⟨s, hs, rfl⟩ := List.mem_map.1 htext
    rw [hmsg s hs, I.b64] at hb
    exact .inl ⟨pw, s.1, (Option.some.inj hb).symm⟩
  unfold dialerConfirm
  rw [safe_readLengthPrefixed_bind]
  refine ⟨trivial, fun challengeFrame _ => ?_, fun _ _ => fails _ _⟩
  rw [Prog.safe_ofExcept_bind]
  refine ⟨fun challenge _ => ?_, fun _ _ => fails _ _⟩
  rw [safe_ensure_bind]
  refine ⟨fun hcount => ?_, fun _ => fails _ _⟩
  rw [Prog.safe_ofExcept_bind]
  refine ⟨fun fin hfin => ?_, fun _ _ => fails _ _⟩
  rw [Prog.safe_ofExcept_bind]
  refine ⟨fun response hresponse => ?_, fun _ _ => fails _ _⟩
  obtain ⟨rfl, -⟩ := encodeLengthPrefixed_ok.1 hresponse
  rw [safe_writeFrame_bind]
  refine ⟨fun text htext b hb => ?_, fun _ => ?_, fun _ _ => fails _ _⟩
  · have htexts' : encodedTexts (PinResponse.new (fin.map Prod.snd)).toFrame =
        fin.map Prod.snd := by
      simp [encodedTexts, PinResponse.new, PinResponse.toFrame]
    rw [htexts'] at htext
    obtain ⟨kc, hkc, rfl⟩ := List.mem_map.1 htext
    obtain ⟨i, hi⟩ := List.mem_iff_getElem?.1 hkc
    obtain ⟨_, _, _, _, hc⟩ := finishSlots_getElem? hfin hi
    rw [hc, I.b64] at hb
    exact .inr ⟨kc.1, _, d, l, (Option.some.inj hb).symm⟩
  unfold dialerVerify
  rw [safe_readLengthPrefixed_bind]
  refine ⟨trivial, fun confirmFrame _ => ?_, fun _ _ => fails _ _⟩
  rw [Prog.safe_ofExcept_bind]
  refine ⟨fun confirm hconfirm => ?_, fun _ _ => fails _ _⟩
  replace hconfirm : decodePinConfirm confirmFrame = .ok confirm := withContext_eq_ok.1 hconfirm
  rcases hcheck : checkConfirm C (fin.map Prod.fst) d l confirm with e | u
  · exact fails _ _
  intro _
  obtain ⟨slot, mac, hslot, hlt, hmac, hdec⟩ := checkConfirm_eq_ok hcheck
  have hfinlen : fin.length = PAKE_SLOTS := by
    rw [finishSlots_length (by simpa [hlen] using (of_decide_eq_true hcount).symm) hfin]
    simpa using hlen
  obtain ⟨x, msgB, hx, hkey, -⟩ := finishSlots_getElem? hfin
    (List.getElem?_eq_getElem (i := slot) (by omega))
  rw [Nat.zero_add] at hkey
  rw [List.getElem?_map] at hx
  obtain ⟨s, hs, rfl⟩ := Option.map_eq_some_iff.1 hx
  refine ⟨pw, s.1, slot, msgB, _, confirmFrame, confirm, mac, hpw, hlt, ?_, hkey, by simp, hconfirm,
    hslot, hmac, ?_⟩
  · refine ⟨(AuthRequest.pinRequest (states.map Prod.snd)).toFrame, .ok (), _, _, s.2, ?_,
      decodeAuthRequest_pin _, ?_, ?_⟩
    · exact List.mem_append_left _ (List.mem_append_left _ (List.mem_append_left _
        (List.mem_append_right _ (List.mem_singleton_self _))))
    · rw [List.getElem?_map, hs]
      rfl
    · rw [hmsg s (List.mem_of_getElem? hs), I.b64]
  · rw [hdec, List.getD_eq_getElem?_getD, List.getElem?_map,
      List.getElem?_eq_getElem (by omega : slot < fin.length)]
    rfl

/-- An optional text that was parsed stands in the frame. -/
lemma Frame.mem_of_optStr {fs : Frame} {key s : String} (h : fs.optStr key = some (some s)) :
    (key, .str s) ∈ fs := by
  unfold Frame.optStr at h
  split at h
  case h_3 k v hf =>
    obtain rfl : v = s := by simpa using h
    have hmem : (k, Value.str v) ∈ fs.filter fun f => f.1 = key := by rw [hf]; simp
    obtain ⟨hin, hkey⟩ := List.mem_filter.1 hmem
    obtain rfl : k = key := by simpa using hkey
    exact hin
  all_goals simp at h

/-- The confirmation of a verdict is one of its frame's base64 fields. -/
lemma confirm_mem_encodedTexts {frame : Frame} {confirm : PinConfirm} {mac : String}
    (h : decodePinConfirm frame = .ok confirm) (hmac : confirm.confirm = some mac) :
    mac ∈ encodedTexts frame := by
  obtain ⟨hof, -⟩ := decodeLengthPrefixed_ok.1 h
  have hstr : frame.optStr "confirm" = some (some mac) := by
    unfold PinConfirm.ofFrame at hof
    simp only [bind, Option.bind_eq_some_iff, pure, Option.some.injEq] at hof
    obtain ⟨_, _, _, _, _, _, _, _, _, hc, rfl⟩ := hof
    rw [hc, ← hmac]
  refine List.mem_flatMap.2 ⟨_, Frame.mem_of_optStr hstr, ?_⟩
  simp

/-- **A dialer that accepts was answered by a peer that knows its PIN.** If whatever the peer puts
into its frames it can compute, at that moment, from what it knows, then a dialer that returns has
read a verdict naming a slot in range, and the peer knows the password of its PIN.

**Proof sketch.** The verdict carries the listener's confirmation under a key of the dialer's
password, of the two node ids and of the message the dialer sent for that slot. The dialer itself
never tells anything but messages and its own confirmations, and no other instance has this key, so
the peer can only have made the confirmation from the password. -/
theorem dialer_peer_knows (I : Ideal C) {pin d l : String} {pws : PinPassword → Prop}
    {h : List HandshakeEvt} (hf : (dialerHandshake C pin d l).Follows h (.ret ()))
    (hpeer : ∀ h₁ frame h₂, h = h₁ ++ ⟨.read MAX_CONTROL_MESSAGE_SIZE, .ok frame⟩ :: h₂ →
      ∀ text ∈ encodedTexts frame, ∀ b, C.b64Decode text = some b →
        Knows I pws (Sent C h) d l (Spoken C h₁) b) :
    ∃ pw slot frame confirm, C.deriveAuthKeyMaterial pin = .ok pw ∧ pws pw ∧ slot < PAKE_SLOTS ∧
      ⟨.read MAX_CONTROL_MESSAGE_SIZE, .ok frame⟩ ∈ h ∧ decodePinConfirm frame = .ok confirm ∧
      confirm.slot = some slot := by
  have hsafe := dialer_safe I pin d l
  obtain ⟨pw, x, slot, msgB, key, frame, confirm, mac, hpw, hlt, hsent, hkey, hread, hconfirm,
    hslot, hmac, hdec⟩ := hsafe.returned hf (fun _ _ => trivial) rfl
  obtain ⟨h₁, h₂, rfl⟩ := List.append_of_mem hread
  have htold : ∀ b, Spoken C h₁ b → Harmless C b := by
    rintro b ⟨written, a, text, hw, htext, hb⟩
    obtain ⟨g₁, g₂, rfl⟩ := List.append_of_mem hw
    refine (hsafe.sound hf fun _ _ => trivial).1 g₁ ⟨.write written, a⟩
      (g₂ ++ ⟨.read MAX_CONTROL_MESSAGE_SIZE, .ok frame⟩ :: h₂) (by simp) text htext b hb
  have hknows := hpeer h₁ frame h₂ rfl mac (confirm_mem_encodedTexts hconfirm hmac) _ hdec
  rw [I.finishA _ _ _ _ _ _ hkey] at hknows
  exact ⟨pw, slot, frame, confirm, hpw,
    (hknows.password htold).2 _ _ _ _ hsent rfl, hlt, hread, hconfirm, hslot⟩

/-! ## Agreement -/

/-- A node id as text is 64 bytes long.

**Proof sketch.** A node id has 32 bytes, and each of them is two digits of one byte. -/
lemma utf8ByteSize_endpointId (id : EndpointId) : id.toString.utf8ByteSize = 64 := by
  have digit : ∀ n < 16, (Nat.digitChar n).utf8Size = 1 := by decide
  have byte : ∀ b : UInt8, ((hexByte b).map Char.utf8Size).sum = 2 := fun b => by
    have := b.toNat_lt
    simp only [hexByte, List.map_cons, List.map_nil, List.sum_cons, List.sum_nil]
    rw [digit _ (by omega), digit _ (by omega)]
    rfl
  have sum : ∀ bs : Bytes, ((bs.flatMap hexByte).map Char.utf8Size).sum = 2 * bs.length := by
    intro bs
    induction bs with
    | nil => rfl
    | cons b bs ih =>
      simp only [List.flatMap_cons, List.map_append, List.sum_append, List.length_cons, byte, ih]
      omega
  rw [EndpointId.toString, toHex, utf8ByteSize_ofList, sum, id.length_eq]

/-- **Agreement of the PIN handshake**, for ideal primitives, every PIN, every candidate list, every
pair of views of the two node ids and every answer to the claim.

Over a faithful stream, whatever the order of the two sides' steps, every run can be completed; a
complete run has both sides return exactly when the views of the ids agree, the PIN is among the
first `PAKE_SLOTS` candidates and the claim is granted, and in every other case neither returns.

Against an arbitrary peer, the listener asks for the claim at most once and only after the
confirmation of a real slot verified; an acceptance it writes names such a slot and follows the
granted claim, and it returns only after writing one. A dialer returns only when the peer knows the
password of its PIN, for a slot in range that the peer named, even if the peer has every
confirmation that was ever made between other node ids, for this dialer's messages too.

**Proof sketch.** The two sides write and read in turns, so that neither waits in vain, and each
slot of a complete run is followed to its end: the confirmation of the slot with the PIN verifies if
the ids agree, and no other does. Against any peer, the listener's program is safe for what it owes
at each operation. The confirmation that a dialer accepts is a MAC under a key that only a password,
or a run between the same node ids, gives to the peer; and nothing that was sent between other ids
is such a MAC. -/
theorem pin_handshake_agreement (I : Ideal C) (candidates : List PinPassword) (pin : String)
    (d l d' l' : EndpointId) (commit : Bool) :
    (∀ h p h' q, Joint (fun _ _ => True) (Commits commit)
        (dialerHandshake C pin d.toString l.toString)
        (listenerSession C candidates d'.toString l'.toString) h p h' q →
      (∃ h₁ p₁ h₁' q₁, h <+: h₁ ∧ h' <+: h₁' ∧ Joint (fun _ _ => True) (Commits commit)
        (dialerHandshake C pin d.toString l.toString)
        (listenerSession C candidates d'.toString l'.toString) h₁ p₁ h₁' q₁ ∧
        p₁.Ended ∧ q₁.Ended) ∧
      (p.Ended → q.Ended →
        ((p = .ret () ∧ q = .ret ()) ↔
          Agreed C candidates pin d.toString l.toString d'.toString l'.toString commit) ∧
        (¬ Agreed C candidates pin d.toString l.toString d'.toString l'.toString commit →
          p ≠ .ret () ∧ q ≠ .ret ()))) ∧
    (∀ h q, (listenerSession C candidates d'.toString l'.toString).Follows h q →
      (∀ h₁ b h₂, h = h₁ ++ ⟨.commitPin, b⟩ :: h₂ → (∀ e ∈ h₁, e.1 ≠ .commitPin) ∧
        ∃ slot, Verified C candidates d'.toString l'.toString h₁ slot) ∧
      (∀ h₁ slot mac a h₂, h = h₁ ++ ⟨.write (PinConfirm.accept slot mac).toFrame, a⟩ :: h₂ →
        ⟨.commitPin, true⟩ ∈ h₁ ∧ Verified C candidates d'.toString l'.toString h₁ slot) ∧
      (q = .ret () → ∃ slot mac, Verified C candidates d'.toString l'.toString h slot ∧
        ⟨.commitPin, true⟩ ∈ h ∧ ⟨.write (PinConfirm.accept slot mac).toFrame, .ok ()⟩ ∈ h)) ∧
    (∀ pws h, (dialerHandshake C pin d.toString l.toString).Follows h (.ret ()) →
      (∀ h₁ frame h₂, h = h₁ ++ ⟨.read MAX_CONTROL_MESSAGE_SIZE, .ok frame⟩ :: h₂ →
        ∀ text ∈ encodedTexts frame, ∀ b, C.b64Decode text = some b →
          Knows I pws (Sent C h) d.toString l.toString (Spoken C h₁) b) →
      ∃ pw slot frame confirm, C.deriveAuthKeyMaterial pin = .ok pw ∧ pws pw ∧
        slot < PAKE_SLOTS ∧ ⟨.read MAX_CONTROL_MESSAGE_SIZE, .ok frame⟩ ∈ h ∧
        decodePinConfirm frame = .ok confirm ∧ confirm.slot = some slot) := by
  refine ⟨fun h p h' q hJ => ⟨joint_completes hJ, fun hp hq => ?_⟩, fun h q hf => ?_,
    fun pws h hf hpeer => dialer_peer_knows I hf hpeer⟩
  · obtain ⟨hyes, hno⟩ := joint_outcome I (Nat.le_of_eq (utf8ByteSize_endpointId d))
      (Nat.le_of_eq (utf8ByteSize_endpointId l)) hJ hp hq
    refine ⟨⟨fun hret => ?_, hyes⟩, hno⟩
    by_contra hnot
    exact (hno hnot).1 hret.1
  · have hsafe := listener_safe (C := C) candidates d'.toString l'.toString
    have hR : ∀ e ∈ h, AnyAnswer e.1 e.2 := fun _ _ => trivial
    obtain ⟨hdue, hend⟩ := hsafe.sound hf hR
    refine ⟨fun h₁ b h₂ he => ?_, fun h₁ slot mac a h₂ he => ?_, fun hq => ?_⟩
    · exact hdue h₁ ⟨.commitPin, b⟩ h₂ he
    · exact hdue h₁ ⟨.write (PinConfirm.accept slot mac).toFrame, a⟩ h₂ he slot mac rfl
    · subst hq
      simpa using hend rfl

/-! ## A concrete instance -/

namespace Sample

/-- A byte string that ends itself: every byte is marked, and a zero closes it. -/
def closed (b : Bytes) : Bytes := b.flatMap (fun c => [1, c]) ++ [0]

/-- A message that is closed is read back, with what comes behind it.

**Proof sketch.** By induction on the first message. Each of its bytes is marked, and the end has a
mark of its own. -/
lemma closed_append_inj {a b s t : Bytes} (h : closed a ++ s = closed b ++ t) :
    a = b ∧ s = t := by
  induction a generalizing b with
  | nil =>
    rcases b with _ | ⟨c, b⟩
    · exact ⟨rfl, by simpa [closed] using h⟩
    · simp [closed] at h
  | cons c a ih =>
    rcases b with _ | ⟨c', b⟩
    · simp [closed] at h
    · simp only [closed, List.flatMap_cons, List.cons_append, List.nil_append,
        List.cons.injEq, true_and] at h
      obtain ⟨rfl, rfl⟩ := ih (b := b) h.2
      exact ⟨by rw [h.1], rfl⟩

/-- A closed message has two bytes for each of its bytes, and its end. -/
lemma length_closed (b : Bytes) : (closed b).length = 2 * b.length + 1 := by
  induction b with
  | nil => rfl
  | cons c b ih =>
    simp only [closed, List.flatMap_cons, List.cons_append, List.nil_append,
      List.length_cons] at ih ⊢
    omega

/-- The key of an instance, spelled out. -/
def key (pw : PinPassword) (idA idB mA mB : Bytes) : Bytes :=
  2 :: (closed pw.bytes ++ (closed idA ++ (closed idB ++ (closed mA ++ closed mB))))

/-- A MAC, spelled out. -/
def hmac (k m : Bytes) : Bytes := 3 :: (closed k ++ closed m)

/-- Primitives that spell out what they are computed from. A key is the text of its inputs and a
confirmation is the text of its key and its message, so that each can be told apart. -/
def crypto : Crypto where
  parseKey _ := none
  verifyAuthSignature _ _ _ := .error (.msg "Invalid signature")
  deriveAuthKeyMaterial pin := .ok (.padded pin)
  pakeMsgA _ x := [4, UInt8.ofNat x]
  pakeMsgB _ y := [5, UInt8.ofNat y]
  pakeFinishA pw idA idB x msgB := .ok (key pw idA idB [4, UInt8.ofNat x] msgB)
  pakeFinishB pw idA idB y msgA := .ok (key pw idA idB msgA [5, UInt8.ofNat y])
  hmac := hmac
  b64Encode b := String.ofList (b.map fun c => Char.ofNat (256 + c.toNat))
  b64Decode s := some (s.toList.map fun c => UInt8.ofNat (c.toNat - 256))

/-- Where a byte is encoded. -/
lemma toNat_encoded (c : UInt8) : (Char.ofNat (256 + c.toNat)).toNat = 256 + c.toNat := by
  have := c.toNat_lt
  have hv : (256 + c.toNat).isValidChar := Or.inl (by omega)
  rw [Char.ofNat, dif_pos hv]
  rfl

/-- The JSON text of an encoded byte string is at most two bytes a byte, and its quotes.

**Proof sketch.** An encoded byte is a character from 256 on, so none of them is escaped, and each
takes two bytes. -/
lemma jsonString_encoded_le (b : Bytes) :
    (jsonString (crypto.b64Encode b)).utf8ByteSize ≤ 2 * b.length + 2 := by
  have hq : "\"".utf8ByteSize = 1 := by decide
  have hsize : ∀ c : UInt8,
      ((escapeChar (Char.ofNat (256 + c.toNat))).map Char.utf8Size).sum ≤ 2 := by
    intro c
    have hc := toNat_encoded c
    have hlt := c.toNat_lt
    have hne : ∀ x : Char, x.toNat < 256 → Char.ofNat (256 + c.toNat) ≠ x := fun x hx he => by
      rw [he] at hc
      omega
    unfold escapeChar
    rw [if_neg (hne _ (by decide)), if_neg (hne _ (by decide)), if_neg (hne _ (by decide)),
      if_neg (hne _ (by decide)), if_neg (hne _ (by decide)), if_neg (by omega), if_neg (by omega),
      if_neg (by omega)]
    simp only [List.map_cons, List.map_nil, List.sum_cons, List.sum_nil, Nat.add_zero]
    unfold Char.utf8Size
    have h2 : (Char.ofNat (256 + c.toNat)).val ≤ 0x7FF := by
      rw [UInt32.le_iff_toNat_le]
      exact Nat.le_trans (Nat.le_of_eq hc) (by simp; omega)
    show (if _ then 1 else if _ then 2 else if _ then 3 else 4) ≤ 2
    split_ifs with h1 h3 <;> first | omega | exact (h3 h2).elim
  have hsum : ∀ bs : Bytes, ((((bs.map fun c => Char.ofNat (256 + c.toNat)).flatMap
      escapeChar)).map Char.utf8Size).sum ≤ 2 * bs.length := by
    intro bs
    induction bs with
    | nil => simp
    | cons c bs ih =>
      have := hsize c
      simp only [List.map_cons, List.flatMap_cons, List.map_append, List.sum_append,
        List.length_cons]
      omega
  have := hsum b
  simp only [jsonString, crypto, String.utf8ByteSize_append, hq, String.toList_ofList,
    utf8ByteSize_ofList]
  omega

/-- A MAC is no key, and a message of the dialer is neither. -/
lemma hmac_ne_key (k m : Bytes) (pw : PinPassword) (idA idB mA mB : Bytes) :
    crypto.hmac k m ≠ key pw idA idB mA mB := by
  intro h
  simp [crypto, hmac, key] at h

/-- A message of the dialer is no confirmation, -/
lemma msgA_ne_hmac (pw : PinPassword) (x : ℕ) (k m : Bytes) :
    crypto.pakeMsgA pw x ≠ crypto.hmac k m := by
  intro h
  simp [crypto, hmac] at h

/-- and no key. -/
lemma msgA_ne_key (pw : PinPassword) (x : ℕ) (pw' : PinPassword) (idA idB mA mB : Bytes) :
    crypto.pakeMsgA pw x ≠ key pw' idA idB mA mB := by
  intro h
  simp [crypto, key] at h

/-- A key says what it was made from, -/
lemma key_inj {pw pw' : PinPassword} {idA idB mA mB idA' idB' mA' mB' : Bytes}
    (h : key pw idA idB mA mB = key pw' idA' idB' mA' mB') :
    pw = pw' ∧ idA = idA' ∧ idB = idB' ∧ mA = mA' ∧ mB = mB' := by
  obtain ⟨hpw, h⟩ := closed_append_inj (List.cons.inj h).2
  obtain ⟨hA, h⟩ := closed_append_inj h
  obtain ⟨hB, h⟩ := closed_append_inj h
  obtain ⟨hmA, h⟩ := closed_append_inj h
  obtain ⟨hmB, -⟩ := closed_append_inj (s := []) (t := []) (by simpa using h)
  exact ⟨PinPassword.bytes_inj.1 hpw, hA, hB, hmA, hmB⟩

/-- and so does a MAC. -/
lemma hmac_inj {k m k' m' : Bytes} (h : crypto.hmac k m = crypto.hmac k' m') :
    k = k' ∧ m = m' := by
  obtain ⟨hk, h⟩ := closed_append_inj (List.cons.inj h).2
  obtain ⟨hm, -⟩ := closed_append_inj (s := []) (t := []) (by simpa using h)
  exact ⟨hk, hm⟩

/-- A byte string is read back from its encoded form. -/
lemma b64_decode_encode (b : Bytes) : crypto.b64Decode (crypto.b64Encode b) = some b := by
  have : ∀ bs : Bytes, (bs.map fun c => Char.ofNat (256 + c.toNat)).map
      (fun c => UInt8.ofNat (c.toNat - 256)) = bs := by
    intro bs
    induction bs with
    | nil => rfl
    | cons c bs ih => simp only [List.map_cons, ih, toNat_encoded, Nat.add_sub_cancel_left,
        UInt8.ofNat_toNat]
  simp only [crypto, String.toList_ofList, this]

/-- The messages of a handshake are small, -/
lemma message_small (b : Bytes) (h : b.length ≤ 2) :
    (jsonString (crypto.b64Encode b)).utf8ByteSize ≤ 4096 :=
  Nat.le_trans (jsonString_encoded_le b) (by omega)

/-- and so are its confirmations.

**Proof sketch.** A confirmation spells out the key and the ids, so that its size is the sum of
theirs; each encoded byte takes two. -/
lemma mac_small (pw pwA : PinPassword) (x : ℕ) (pwB : PinPassword) (y : ℕ) (dir : Direction)
    (slot : ℕ) (idD idL : String) (hslot : slot < PAKE_SLOTS) (hD : idD.utf8ByteSize ≤ 64)
    (hL : idL.utf8ByteSize ≤ 64) :
    (jsonString (crypto.b64Encode (confirmMac crypto (key pw (pakeIdentities slot idD idL).1
      (pakeIdentities slot idD idL).2 (crypto.pakeMsgA pwA x) (crypto.pakeMsgB pwB y)) dir slot idD
      idL))).utf8ByteSize ≤ 4096 := by
  refine Nat.le_trans (jsonString_encoded_le _) ?_
  have hpw := pw.length_eq
  have hdomain : PAKE_DOMAIN.utf8ByteSize = 17 := by decide
  have hd : "|dialer|".utf8ByteSize = 8 := by decide
  have hl : "|listener|".utf8ByteSize = 10 := by decide
  have hc : "|confirm|".utf8ByteSize = 9 := by decide
  have hbar : "|".utf8ByteSize = 1 := by decide
  have hdir : dir.asStr.utf8ByteSize ≤ 8 := by cases dir <;> decide
  have hnum : (toString slot).utf8ByteSize = 1 := by
    obtain rfl | rfl : slot = 0 ∨ slot = 1 := by unfold PAKE_SLOTS at hslot; omega
    · decide
    · decide
  simp only [confirmMac, crypto, hmac, key, pakeIdentities, confirmText, List.length_cons,
    List.length_append, length_closed, length_utf8, String.utf8ByteSize_append, hdomain, hd, hl,
    hc, hbar, hnum, hpw, List.length_nil]
  omega

/-- The sample primitives are ideal. Each law is read off the texts that they are made of. -/
def ideal : Ideal crypto where
  key := key
  finishA _ _ _ _ _ _ h := (Except.ok.inj h).symm
  finishB _ _ _ _ _ _ h := (Except.ok.inj h).symm
  acceptsB _ _ _ _ _ _ := ⟨_, rfl⟩
  acceptsA _ _ _ _ _ _ := ⟨_, rfl⟩
  hmac_ne_key := hmac_ne_key
  msgA_ne_hmac := msgA_ne_hmac
  msgA_ne_key := msgA_ne_key
  key_inj := key_inj
  hmac_inj := hmac_inj
  b64 := b64_decode_encode
  msgA_small _ _ := message_small _ (Nat.le_refl 2)
  msgB_small _ _ := message_small _ (Nat.le_refl 2)
  mac_small := mac_small

end Sample

/-- Two ids to try the agreement at. -/
def sampleId (b : UInt8) : EndpointId := .filled b

/-- A pairing whose PIN stands in the listener's second slot, over ideal primitives: the two sides
accept in every complete run, and so do they in some run. -/
theorem pin_handshake_agreement_sample :
    ∃ h h' : List HandshakeEvt, Joint (fun _ _ => True) (Commits true)
      (dialerHandshake Sample.crypto "ABCD-EFGH" (sampleId 1).toString (sampleId 2).toString)
      (listenerSession Sample.crypto [⟨List.replicate 32 7, List.length_replicate⟩,
        .padded "ABCD-EFGH"] (sampleId 1).toString (sampleId 2).toString) h (.ret ())
        h' (.ret ()) := by
  have hagree := (pin_handshake_agreement Sample.ideal
    [⟨List.replicate 32 7, List.length_replicate⟩, .padded "ABCD-EFGH"] "ABCD-EFGH" (sampleId 1)
    (sampleId 2) (sampleId 1) (sampleId 2) true).1
  obtain ⟨h, p, h', q, -, -, hJ, hp, hq⟩ := (hagree [] _ [] _ .init).1
  obtain ⟨rfl, rfl⟩ := ((hagree h p h' q hJ).2 hp hq).1.2
    ⟨rfl, rfl, ⟨_, rfl, by simp [PAKE_SLOTS]⟩, rfl⟩
  exact ⟨h, h', hJ⟩

end Duocb.PinAuth
