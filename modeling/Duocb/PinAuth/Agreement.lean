import Duocb.PinAuth
import Duocb.Protocol.Json
import Duocb.Stream

set_option relaxedAutoImplicit false
set_option autoImplicit false

/-!
# Agreement of the PIN handshake

The two halves against each other over a faithful stream, with SPAKE2 and HMAC idealised: the keys
of the two sides of an instance are equal exactly when their passwords, identity pairs and messages
are, and a MAC determines its key and its text.

## Main definitions

* `Duocb.PinAuth.Ideal` — ideal primitives.
* `Duocb.PinAuth.Agreed` — the condition under which the two halves accept.

## Main results

* `Duocb.PinAuth.joint_outcome` — what a complete joint run ends in.
* `Duocb.PinAuth.joint_completes` — every joint run can be completed.
-/

namespace Duocb.PinAuth

/-- Ideal SPAKE2, HMAC and base64: keys and MACs determine what they were computed from, an
instance accepts every message of the other side, and all texts of an exchange between two node
ids are small. -/
structure Ideal (C : Crypto) where
  /-- The key of an instance: from the password, the identity pair and the two messages. -/
  key : PinPassword → Bytes → Bytes → Bytes → Bytes → Bytes
  finishA : ∀ pw idA idB x msgB k, C.pakeFinishA pw idA idB x msgB = .ok k →
    k = key pw idA idB (C.pakeMsgA pw x) msgB
  finishB : ∀ pw idA idB y msgA k, C.pakeFinishB pw idA idB y msgA = .ok k →
    k = key pw idA idB msgA (C.pakeMsgB pw y)
  acceptsB : ∀ pw idA idB x pw' y, ∃ k, C.pakeFinishA pw idA idB x (C.pakeMsgB pw' y) = .ok k
  acceptsA : ∀ pw idA idB y pw' x, ∃ k, C.pakeFinishB pw idA idB y (C.pakeMsgA pw' x) = .ok k
  /-- Keys, MACs and messages are different things. -/
  hmac_ne_key : ∀ k m pw idA idB mA mB, C.hmac k m ≠ key pw idA idB mA mB
  msgA_ne_hmac : ∀ pw x k m, C.pakeMsgA pw x ≠ C.hmac k m
  msgA_ne_key : ∀ pw x pw' idA idB mA mB, C.pakeMsgA pw x ≠ key pw' idA idB mA mB
  key_inj : ∀ {pw idA idB mA mB pw' idA' idB' mA' mB'},
    key pw idA idB mA mB = key pw' idA' idB' mA' mB' →
      pw = pw' ∧ idA = idA' ∧ idB = idB' ∧ mA = mA' ∧ mB = mB'
  hmac_inj : ∀ {k m k' m'}, C.hmac k m = C.hmac k' m' → k = k' ∧ m = m'
  b64 : ∀ b, C.b64Decode (C.b64Encode b) = some b
  msgA_small : ∀ pw x, (jsonString (C.b64Encode (C.pakeMsgA pw x))).utf8ByteSize ≤ 4096
  msgB_small : ∀ pw y, (jsonString (C.b64Encode (C.pakeMsgB pw y))).utf8ByteSize ≤ 4096
  mac_small : ∀ pw pwA x pwB y dir slot idD idL, slot < PAKE_SLOTS → idD.utf8ByteSize ≤ 64 →
    idL.utf8ByteSize ≤ 64 →
    (jsonString (C.b64Encode (confirmMac C (key pw (pakeIdentities slot idD idL).1
      (pakeIdentities slot idD idL).2 (C.pakeMsgA pwA x) (C.pakeMsgB pwB y)) dir slot idD
      idL))).utf8ByteSize ≤ 4096

/-! ## Identities and frames -/

/-- A number and a text behind a bar determine both, since no digit is a bar. -/
lemma numbered_inj {n n' : ℕ} {s s' : String}
    (h : toString n ++ "|" ++ s = toString n' ++ "|" ++ s') : n = n' ∧ s = s' := by
  have stops : ∀ t : String, Json.Stops ('|' :: t.toList) := fun t c hc => by
    obtain rfl : '|' = c := by simpa using hc
    decide
  have hbar : "|".toList = ['|'] := by decide
  have hlists := congrArg String.toList h
  simp only [String.toList_append, List.append_assoc, hbar, List.singleton_append] at hlists
  have hread := Json.readNat_toString n (stops s)
  rw [hlists, Json.readNat_toString n' (stops s')] at hread
  simp only [Option.some.injEq, Prod.mk.injEq, List.cons.injEq, true_and] at hread
  exact ⟨hread.1.symm, String.toList_inj.1 hread.2.symm⟩

/-- The identity pair of a slot determines the slot and both node ids. Two instances with one pair
are thus one slot of one dialer and one listener. -/
lemma pakeIdentities_inj {slot slot' : ℕ} {d l d' l' : String}
    (h₁ : (pakeIdentities slot d l).1 = (pakeIdentities slot' d' l').1)
    (h₂ : (pakeIdentities slot d l).2 = (pakeIdentities slot' d' l').2) :
    slot = slot' ∧ d = d' ∧ l = l' := by
  simp only [pakeIdentities, utf8_inj, String.append_assoc] at h₁ h₂
  have hd : toString slot ++ "|" ++ d = toString slot' ++ "|" ++ d' := by
    simpa [String.append_assoc] using h₁
  have hl : toString slot ++ "|" ++ l = toString slot' ++ "|" ++ l' := by
    simpa [String.append_assoc] using h₂
  exact ⟨(numbered_inj hd).1, (numbered_inj hd).2, (numbered_inj hl).2⟩

/-- A list of two small texts fits in a control frame, under any of the field names in use.

**Proof sketch.** The sizes of the parts of each frame are added up. -/
lemma pakes_fit {a b : String} (ha : (jsonString a).utf8ByteSize ≤ 4096)
    (hb : (jsonString b).utf8ByteSize ≤ 4096) :
    (AuthRequest.pinRequest [a, b]).toFrame.size ≤ MAX_CONTROL_MESSAGE_SIZE ∧
    (PinChallenge.new [a, b]).toFrame.size ≤ MAX_CONTROL_MESSAGE_SIZE ∧
    (PinResponse.new [a, b]).toFrame.size ≤ MAX_CONTROL_MESSAGE_SIZE := by
  have hm : (jsonString "method").utf8ByteSize = 8 := by decide
  have hp : (jsonString "Pin").utf8ByteSize = 5 := by decide
  have hv : (jsonString "version").utf8ByteSize = 9 := by decide
  have hpk : (jsonString "pakes").utf8ByteSize = 7 := by decide
  have hc : (jsonString "confirms").utf8ByteSize = 10 := by decide
  have hn : (toString DUOCB_PROTO_VERSION).utf8ByteSize = 1 := by decide
  have h1 : "\x7b".utf8ByteSize = 1 := by decide
  have h2 : "\x7d".utf8ByteSize = 1 := by decide
  have h3 : ",".utf8ByteSize = 1 := by decide
  have h4 : ":".utf8ByteSize = 1 := by decide
  have h5 : "[".utf8ByteSize = 1 := by decide
  have h6 : "]".utf8ByteSize = 1 := by decide
  simp only [Frame.size, Frame.render, AuthRequest.toFrame, AuthRequest.pinRequest,
    PinChallenge.toFrame, PinChallenge.new, PinResponse.toFrame, PinResponse.new, List.map,
    renderField, Value.render, commaSep, String.utf8ByteSize_append, hm, hp, hv, hpk, hc, hn, h1,
    h2, h3, h4, h5, h6, MAX_CONTROL_MESSAGE_SIZE]
  omega

/-- A verdict with a small confirmation fits in a control frame.

**Proof sketch.** The sizes of the parts of the frame are added up. -/
lemma accept_fits {slot : ℕ} {mac : String} (hslot : slot < PAKE_SLOTS)
    (hmac : (jsonString mac).utf8ByteSize ≤ 4096) :
    (PinConfirm.accept slot mac).toFrame.size ≤ MAX_CONTROL_MESSAGE_SIZE := by
  have hv : (jsonString "version").utf8ByteSize = 9 := by decide
  have ha : (jsonString "accepted").utf8ByteSize = 10 := by decide
  have hs : (jsonString "slot").utf8ByteSize = 6 := by decide
  have hc : (jsonString "confirm").utf8ByteSize = 9 := by decide
  have hn : (toString DUOCB_PROTO_VERSION).utf8ByteSize = 1 := by decide
  have ht : "true".utf8ByteSize = 4 := by decide
  have h1 : "\x7b".utf8ByteSize = 1 := by decide
  have h2 : "\x7d".utf8ByteSize = 1 := by decide
  have h3 : ",".utf8ByteSize = 1 := by decide
  have h4 : ":".utf8ByteSize = 1 := by decide
  have hnum : (toString slot).utf8ByteSize = 1 := by
    obtain rfl | rfl : slot = 0 ∨ slot = 1 := by unfold PAKE_SLOTS at hslot; omega
    · decide
    · decide
  simp only [Frame.size, Frame.render, PinConfirm.toFrame, PinConfirm.accept, optField,
    Option.map, Option.toList, List.append_nil, List.cons_append, List.nil_append, List.map,
    renderField, Value.render, commaSep, String.utf8ByteSize_append, hv, ha, hs, hc, hn, ht, h1,
    h2, h3, h4, hnum, if_true, MAX_CONTROL_MESSAGE_SIZE]
  omega

/-! ## The turns of each side, followed to their end -/

/-- A history without reads and writes. -/
def Quiet (h : List HandshakeEvt) : Prop := readCount h = 0 ∧ writes h = []

/-- Two quiet stretches are quiet together. -/
lemma Quiet.append {h h' : List HandshakeEvt} (hq : Quiet h) (hq' : Quiet h') : Quiet (h ++ h') :=
  ⟨by simp [hq.1, hq'.1], by simp [hq.2, hq'.2]⟩

variable {C : Crypto} (I : Ideal C)

/-- The dialer's request. -/
def requestFrame (C : Crypto) (pw : PinPassword) (x₀ x₁ : ℕ) : Frame :=
  (AuthRequest.pinRequest
    [C.b64Encode (C.pakeMsgA pw x₀), C.b64Encode (C.pakeMsgA pw x₁)]).toFrame

/-- The confirmation of one slot. -/
def confirmation (C : Crypto) (key : Bytes) (slot : ℕ) (d l : String) : String :=
  C.b64Encode (confirmMac C key .dialer slot d l)

/-- The key of an instance between a dialer with `pw` and `x` and a listener's message. -/
def Ideal.slotKey (pw : PinPassword) (slot : ℕ) (d l : String) (msgA msgB : Bytes) : Bytes :=
  I.key pw (pakeIdentities slot d l).1 (pakeIdentities slot d l).2 msgA msgB

/-- **The dialer's first turn** ends in its request, if the PIN could be stretched.

**Proof sketch.** Each slot draws a scalar and makes its message. The two messages are in the
request, which is small enough to be sent. -/
lemma dialer_opens {pin d l : String} {pw : PinPassword} (I : Ideal C)
    (hpw : C.deriveAuthKeyMaterial pin = .ok pw) {h : List HandshakeEvt} {p : Handshake Unit}
    (hf : (dialerHandshake C pin d l).Follows h p) (hp : p.Ended) :
    ∃ (x₀ x₁ : ℕ) (pre h₁ : List HandshakeEvt) (a : Except Error Unit), Quiet pre ∧
      h = pre ++ ⟨.write (requestFrame C pw x₀ x₁), a⟩ :: h₁ ∧
      (a = .ok () → (dialerConfirm C pw d l [x₀, x₁]).Follows h₁ p) := by
  simp only [dialerHandshake, hpw, Prog.ofExcept_ok, Prog.ret_bind] at hf
  obtain ⟨pre, states, h', rfl, hpre, hstates, hrest⟩ := hf.of_each (N := Quiet)
    (P := fun _ s => s.2 = C.b64Encode (C.pakeMsgA pw s.1)) ⟨rfl, rfl⟩ (fun _ _ => Quiet.append)
    (fun slot _ g h q hg hq => by
      obtain ⟨x, h', rfl, hrest⟩ := ended_randomScalar
        (f := fun x => g (x, C.b64Encode (C.pakeMsgA pw x))) hg hq
      exact ⟨[⟨.randomScalar, x⟩], _, h', rfl, ⟨rfl, rfl⟩, rfl, hrest⟩) hp
  obtain ⟨⟨x₀, m₀⟩, ⟨x₁, m₁⟩, rfl, hm₀, hm₁⟩ : ∃ s₀ s₁, states = [s₀, s₁] ∧
      s₀.2 = C.b64Encode (C.pakeMsgA pw s₀.1) ∧ s₁.2 = C.b64Encode (C.pakeMsgA pw s₁.1) := by
    rcases hstates with _ | ⟨h₀, _ | ⟨h₁, _ | _⟩⟩
    exact ⟨_, _, rfl, h₀, h₁⟩
  simp only at hm₀ hm₁
  subst hm₀ hm₁
  have henc : encodeAuthRequest (.pinRequest
      [C.b64Encode (C.pakeMsgA pw x₀), C.b64Encode (C.pakeMsgA pw x₁)]) =
      .ok (requestFrame C pw x₀ x₁) :=
    encodeLengthPrefixed_ok.2 ⟨rfl, (pakes_fit (I.msgA_small pw x₀) (I.msgA_small pw x₁)).1⟩
  simp only [List.map, henc, Prog.ofExcept_ok, Prog.ret_bind] at hrest
  obtain ⟨a, h₁, rfl, hlast⟩ := ended_writeFrame hrest hp
  exact ⟨x₀, x₁, pre, h₁, a, hpre, rfl, hlast⟩

/-- Finishing a slot with a listener's message gives the slot's key and its confirmation. -/
lemma finishSlot_msgB (pw pw' : PinPassword) (d l : String) (slot x y : ℕ) :
    finishSlot C pw d l slot x (C.b64Encode (C.pakeMsgB pw' y)) =
      .ok (I.slotKey pw slot d l (C.pakeMsgA pw x) (C.pakeMsgB pw' y),
        confirmation C (I.slotKey pw slot d l (C.pakeMsgA pw x) (C.pakeMsgB pw' y)) slot d l) := by
  obtain ⟨k, hk⟩ := I.acceptsB pw (pakeIdentities slot d l).1 (pakeIdentities slot d l).2 x pw' y
  have hkey := I.finishA _ _ _ _ _ _ hk
  simp only [finishSlot, decodeB64, I.b64, hk, finishError, Except.mapError, bind, Except.bind,
    pure, Except.pure, hkey, Ideal.slotKey, confirmation]

/-- Finishing both slots with a listener's messages. -/
lemma finishSlots_msgB (pw pw₀ pw₁ : PinPassword) (d l : String) (x₀ x₁ y₀ y₁ : ℕ) :
    finishSlots C pw d l 0 [x₀, x₁]
        [C.b64Encode (C.pakeMsgB pw₀ y₀), C.b64Encode (C.pakeMsgB pw₁ y₁)] =
      .ok [(I.slotKey pw 0 d l (C.pakeMsgA pw x₀) (C.pakeMsgB pw₀ y₀), confirmation C
          (I.slotKey pw 0 d l (C.pakeMsgA pw x₀) (C.pakeMsgB pw₀ y₀)) 0 d l),
        (I.slotKey pw 1 d l (C.pakeMsgA pw x₁) (C.pakeMsgB pw₁ y₁), confirmation C
          (I.slotKey pw 1 d l (C.pakeMsgA pw x₁) (C.pakeMsgB pw₁ y₁)) 1 d l)] := by
  simp only [finishSlots, finishSlot_msgB I, bind, Except.bind, pure, Except.pure, Nat.zero_add]

/-- **The dialer's second turn** answers the listener's two messages with two confirmations.

**Proof sketch.** The challenge is decoded as the listener has sent it, and it has the right number
of messages. Both slots are finished, with the keys that ideal primitives give. -/
lemma dialer_confirms {d l : String} {pw : PinPassword} {x₀ x₁ : ℕ} {h : List HandshakeEvt}
    {p : Handshake Unit} (hd : d.utf8ByteSize ≤ 64) (hl : l.utf8ByteSize ≤ 64)
    (hf : (dialerConfirm C pw d l [x₀, x₁]).Follows h p) (hp : p.Ended) :
    ∃ (r : Except Error Frame) (h₁ : List HandshakeEvt),
      h = ⟨.read MAX_CONTROL_MESSAGE_SIZE, r⟩ :: h₁ ∧
      ∀ pw₀ pw₁ y₀ y₁, r = .ok (PinChallenge.new
          [C.b64Encode (C.pakeMsgB pw₀ y₀), C.b64Encode (C.pakeMsgB pw₁ y₁)]).toFrame →
        ∃ (a : Except Error Unit) (h₂ : List HandshakeEvt) (k₀ k₁ : Bytes),
          k₀ = I.slotKey pw 0 d l (C.pakeMsgA pw x₀) (C.pakeMsgB pw₀ y₀) ∧
          k₁ = I.slotKey pw 1 d l (C.pakeMsgA pw x₁) (C.pakeMsgB pw₁ y₁) ∧
          h₁ = ⟨.write (PinResponse.new
            [confirmation C k₀ 0 d l, confirmation C k₁ 1 d l]).toFrame, a⟩ :: h₂ ∧
          (a = .ok () → (dialerVerify C [k₀, k₁] d l).Follows h₂ p) := by
  obtain ⟨r, h₁, rfl, hok, -⟩ := ended_readLengthPrefixed hf hp
  refine ⟨r, h₁, rfl, fun pw₀ pw₁ y₀ y₁ hr => ?_⟩
  have hchallenge := followed_ofExcept
    (b := PinChallenge.new [C.b64Encode (C.pakeMsgB pw₀ y₀), C.b64Encode (C.pakeMsgB pw₁ y₁)])
    (hok _ hr) (by rw [decodePinChallenge_toFrame]; rfl)
  have hfinish := followed_ofExcept (followed_ensure hchallenge rfl)
    (finishSlots_msgB I pw pw₀ pw₁ d l x₀ x₁ y₀ y₁)
  have hwrite := followed_ofExcept hfinish (encodeLengthPrefixed_ok.2 ⟨rfl, (pakes_fit
    (I.mac_small pw pw x₀ pw₀ y₀ .dialer 0 d l (by decide) hd hl)
    (I.mac_small pw pw x₁ pw₁ y₁ .dialer 1 d l (by decide) hd hl)).2.2⟩)
  obtain ⟨a, h₂, rfl, hlast⟩ := ended_writeFrame hwrite hp
  exact ⟨a, h₂, _, _, rfl, rfl, rfl, hlast⟩

/-- **The dialer's last turn** ends as its check of the verdict says.

**Proof sketch.** The verdict is read and decoded, and the check of it is all that is left. -/
lemma dialer_verifies {d l : String} {keys : List Bytes} {h : List HandshakeEvt}
    {p : Handshake Unit} (hf : (dialerVerify C keys d l).Follows h p) (hp : p.Ended) :
    ∃ (r : Except Error Frame) (h₁ : List HandshakeEvt),
      h = ⟨.read MAX_CONTROL_MESSAGE_SIZE, r⟩ :: h₁ ∧
      ∀ frame confirm, r = .ok frame → decodePinConfirm frame = .ok confirm →
        p = .ofExcept (checkConfirm C keys d l confirm) := by
  obtain ⟨r, h₁, rfl, hok, -⟩ := ended_readLengthPrefixed hf hp
  refine ⟨r, h₁, rfl, fun frame confirm hr hdec => ?_⟩
  have hcheck := followed_ofExcept (b := confirm) (hok _ hr) (by rw [hdec]; rfl)
  rcases hc : checkConfirm C keys d l confirm with e | u
  · rw [hc] at hcheck
    exact hcheck.of_fail.2
  · rw [hc] at hcheck
    exact hcheck.of_ret.2

/-- What a slot of the listener holds when the dialer sent `msgA` for it. -/
def SlotSpec (candidates : List PinPassword) (d l : String) (slot : ℕ) (msgA : Bytes) (s : Slot) :
    Prop :=
  ∃ pw y, s.msg = C.b64Encode (C.pakeMsgB pw y) ∧
    s.key = I.slotKey pw slot d l msgA (C.pakeMsgB pw y) ∧
    (s.real = true ∧ candidates[slot]? = some pw ∨ s.real = false ∧ candidates[slot]? = none)

/-- One slot of the listener, followed past its own operations.

**Proof sketch.** The password is the candidate of the slot or a random one, and what follows is the
same for both: a scalar is drawn, the dialer's message is decoded, and ideal primitives finish. -/
lemma listenerSlot_ended {candidates : List PinPassword} {pakes : List String} {d l : String}
    {slot : ℕ} {pw : PinPassword} {x : ℕ}
    (hpake : pakes.getD slot "" = C.b64Encode (C.pakeMsgA pw x))
    {g : Slot → Handshake Unit} {h : List HandshakeEvt} {q : Handshake Unit}
    (hf : (listenerSlot C candidates pakes d l slot >>= g).Follows h q) (hq : q.Ended) :
    ∃ pre s h₁, h = pre ++ h₁ ∧ Quiet pre ∧
      SlotSpec I candidates d l slot (C.pakeMsgA pw x) s ∧ (g s).Follows h₁ q := by
  -- the part after the password is the same for a PIN and for a dummy
  have after : ∀ (real : Bool) (pw' : PinPassword) (h : List HandshakeEvt),
      (randomScalar >>= fun y => Prog.ofExcept (decodeB64 C (pakes.getD slot "")
          "the dialer's PAKE message") >>= fun msgA => Prog.ofExcept (finishError slot
          (C.pakeFinishB pw' (pakeIdentities slot d l).1 (pakeIdentities slot d l).2 y msgA)) >>=
          fun key => g ⟨real, key, C.b64Encode (C.pakeMsgB pw' y)⟩).Follows h q →
      ∃ y h₁, h = ⟨.randomScalar, y⟩ :: h₁ ∧ (g ⟨real, I.slotKey pw' slot d l (C.pakeMsgA pw x)
        (C.pakeMsgB pw' y), C.b64Encode (C.pakeMsgB pw' y)⟩).Follows h₁ q := by
    intro real pw' h hf
    obtain ⟨y, h₁, rfl, hrest⟩ := ended_randomScalar hf hq
    obtain ⟨k, hk⟩ := I.acceptsA pw' (pakeIdentities slot d l).1 (pakeIdentities slot d l).2 y pw x
    have hdec := followed_ofExcept (b := C.pakeMsgA pw x) hrest
      (by rw [hpake]; simp only [decodeB64, I.b64])
    have hkey := followed_ofExcept (b := k) hdec (by rw [hk]; rfl)
    rw [I.finishB _ _ _ _ _ _ hk] at hkey
    exact ⟨y, h₁, rfl, hkey⟩
  simp only [listenerSlot, slotPassword] at hf
  rcases hc : candidates[slot]? with _ | material
  · rw [hc] at hf
    simp only [Prog.bind_assoc, Prog.pure_eq, Prog.ret_bind] at hf
    obtain ⟨dummy, h₁, rfl, hrest⟩ := ended_randomPassword hf hq
    obtain ⟨y, h₂, rfl, hlast⟩ := after false dummy h₁ hrest
    exact ⟨[⟨.randomPassword, dummy⟩, ⟨.randomScalar, y⟩], _, h₂, rfl, ⟨rfl, rfl⟩,
      ⟨dummy, y, rfl, rfl, .inr ⟨rfl, hc⟩⟩, hlast⟩
  · rw [hc] at hf
    simp only [Prog.bind_assoc, Prog.pure_eq, Prog.ret_bind] at hf
    obtain ⟨y, h₂, rfl, hlast⟩ := after true material h hf
    exact ⟨[⟨.randomScalar, y⟩], _, h₂, rfl, ⟨rfl, rfl⟩, ⟨material, y, rfl, rfl, .inl ⟨rfl, hc⟩⟩,
      hlast⟩

/-- **The listener's first turn** answers a request with one message a slot.

**Proof sketch.** The request is read and decoded, and the slots are followed one after the other;
then the challenge is written. -/
lemma listener_opens {candidates : List PinPassword} {d l : String} {h : List HandshakeEvt}
    {q : Handshake Unit} (hf : (listenerSession C candidates d l).Follows h q) (hq : q.Ended) :
    ∃ (r : Except Error Frame) (h₁ : List HandshakeEvt),
      h = ⟨.read MAX_CONTROL_MESSAGE_SIZE, r⟩ :: h₁ ∧ (∀ e, r = .error e → q = .fail e) ∧
      ∀ pw x₀ x₁, r = .ok (requestFrame C pw x₀ x₁) →
        ∃ (pre h₂ : List HandshakeEvt) (s₀ s₁ : Slot) (a : Except Error Unit), Quiet pre ∧
          SlotSpec I candidates d l 0 (C.pakeMsgA pw x₀) s₀ ∧
          SlotSpec I candidates d l 1 (C.pakeMsgA pw x₁) s₁ ∧
          h₁ = pre ++ ⟨.write (PinChallenge.new [s₀.msg, s₁.msg]).toFrame, a⟩ :: h₂ ∧
          (a = .ok () → (listenerVerify C [s₀, s₁] d l).Follows h₂ q) := by
  obtain ⟨r, h₁, rfl, hok, herr⟩ := ended_readLengthPrefixed hf hq
  refine ⟨r, h₁, rfl, fun e he => (herr e he).2, fun pw x₀ x₁ hr => ?_⟩
  have hrequest := followed_ofExcept (b := AuthRequest.pinRequest
      [C.b64Encode (C.pakeMsgA pw x₀), C.b64Encode (C.pakeMsgA pw x₁)]) (hok _ hr)
    (by rw [requestFrame, decodeAuthRequest_pin]; rfl)
  have hslots := followed_ensure hrequest rfl
  obtain ⟨pre, slots, h₂, rfl, hpre, hspec, hwrite⟩ := hslots.of_each (N := Quiet)
    (P := fun slot s => SlotSpec I candidates d l slot
      (C.pakeMsgA pw (if slot = 0 then x₀ else x₁)) s) ⟨rfl, rfl⟩ (fun _ _ => Quiet.append)
    (fun slot hslot g h q hg hq => by
      refine listenerSlot_ended I ?_ hg hq
      obtain rfl | rfl : slot = 0 ∨ slot = 1 := by
        simp only [PAKE_SLOTS, List.mem_range] at hslot; omega
      · rfl
      · rfl) hq
  obtain ⟨s₀, s₁, rfl, hs₀, hs₁⟩ : ∃ s₀ s₁, slots = [s₀, s₁] ∧
      SlotSpec I candidates d l 0 (C.pakeMsgA pw x₀) s₀ ∧
      SlotSpec I candidates d l 1 (C.pakeMsgA pw x₁) s₁ := by
    rcases hspec with _ | ⟨h₀, _ | ⟨h₁, _ | _⟩⟩
    exact ⟨_, _, rfl, h₀, h₁⟩
  have hsmall : ∀ {slot msgA s}, SlotSpec I candidates d l slot msgA s →
      (jsonString s.msg).utf8ByteSize ≤ 4096 := fun hs => by
    obtain ⟨pw', y, hmsg, -⟩ := hs
    rw [hmsg]
    exact I.msgB_small pw' y
  have hchallenge := followed_ofExcept hwrite
    (encodeLengthPrefixed_ok.2 ⟨rfl, (pakes_fit (hsmall hs₀) (hsmall hs₁)).2.1⟩)
  obtain ⟨a, h₃, rfl, hlast⟩ := ended_writeFrame hchallenge hq
  exact ⟨pre, h₃, s₀, s₁, a, hpre, hs₀, hs₁, rfl, hlast⟩

/-- **The listener's last turn** gives the verdict on the slot that matched. -/
lemma listener_verifies {d l : String} {slots : List Slot} {h : List HandshakeEvt}
    {q : Handshake Unit} (hf : (listenerVerify C slots d l).Follows h q) (hq : q.Ended) :
    ∃ (r : Except Error Frame) (h₁ : List HandshakeEvt),
      h = ⟨.read MAX_CONTROL_MESSAGE_SIZE, r⟩ :: h₁ ∧
      ∀ c₀ c₁, r = .ok (PinResponse.new [c₀, c₁]).toFrame →
        (verdict C slots d l (matchSlot C d l 0 slots [c₀, c₁])).Follows h₁ q := by
  obtain ⟨r, h₁, rfl, hok, -⟩ := ended_readLengthPrefixed hf hq
  refine ⟨r, h₁, rfl, fun c₀ c₁ hr => ?_⟩
  have hresponse := followed_ofExcept (b := PinResponse.new [c₀, c₁]) (hok _ hr)
    (by rw [decodePinResponse_toFrame]; rfl)
  exact followed_ensure hresponse rfl

/-! ## The outcome of a complete joint run -/

/-- The condition under which both halves accept: the two views of the node ids agree, the dialer's
PIN stands in one of the listener's slots, and the claim is granted. -/
def Agreed (C : Crypto) (candidates : List PinPassword) (pin d l d' l' : String) (commit : Bool) :
    Prop :=
  d = d' ∧ l = l' ∧
    (∃ pw, C.deriveAuthKeyMaterial pin = .ok pw ∧ pw ∈ candidates.take PAKE_SLOTS) ∧ commit = true

/-- A listener that asks for the claim is answered `commit`. -/
def Commits (commit : Bool) : (o : Op) → Ans o → Prop
  | .commitPin, (b : Bool) => b = commit
  | _, _ => True

/-- The two sides' confirmations of a slot are equal only if they share the PIN and the ids. -/
lemma slotKey_confirm_inj {pw pw' : PinPassword} {slot : ℕ} {d l d' l' : String}
    {mA mB : Bytes} {dir : Direction}
    (h : confirmMac C (I.slotKey pw slot d l mA mB) dir slot d l =
      confirmMac C (I.slotKey pw' slot d' l' mA mB) dir slot d' l') :
    pw = pw' ∧ d = d' ∧ l = l' := by
  obtain ⟨hkey, -⟩ := I.hmac_inj h
  obtain ⟨hpw, hA, hB, -, -⟩ := I.key_inj hkey
  exact ⟨hpw, (pakeIdentities_inj hA hB).2⟩

/-- What the listener's verdict leaves, when its writes succeed. -/
lemma verdict_none {slots : List Slot} {d l : String} {h : List HandshakeEvt} {q : Handshake Unit}
    (hf : (verdict C slots d l none).Follows h q) (hq : q.Ended) :
    ∃ (a : Except Error Unit) (h₁ : List HandshakeEvt),
      h = ⟨.write (PinConfirm.rejected "PIN authentication failed").toFrame, a⟩ :: h₁ ∧
      (a = .ok () → ∃ e, q = .fail e) := by
  have hreject := followed_ofExcept hf
    (encodeLengthPrefixed_ok.2 ⟨rfl, by decide +kernel⟩)
  obtain ⟨a, h₁, rfl, hrest⟩ := ended_writeFrame hreject hq
  exact ⟨a, h₁, rfl, fun ha => ⟨_, (hrest ha).of_fail.2⟩⟩

/-- A matched slot asks for the claim first, and is confirmed or rejected as it is answered.

**Proof sketch.** The claim is asked for, and the verdict is by the answer: an acceptance with the
confirmation, or a rejection. -/
lemma verdict_some {slots : List Slot} {d l : String} {slot : ℕ} {h : List HandshakeEvt}
    {q : Handshake Unit} (hslot : slot < PAKE_SLOTS)
    (hsmall : (jsonString (C.b64Encode (confirmMac C ((slots.map Slot.key).getD slot []) .listener
      slot d l))).utf8ByteSize ≤ 4096)
    (hf : (verdict C slots d l (some slot)).Follows h q) (hq : q.Ended) :
    ∃ (b : Bool) (a : Except Error Unit) (h₁ : List HandshakeEvt),
      h = ⟨.commitPin, b⟩ :: ⟨.write (if b then (PinConfirm.accept slot (C.b64Encode (confirmMac C
        ((slots.map Slot.key).getD slot []) .listener slot d l))).toFrame else (PinConfirm.rejected
        "listener already paired with another device").toFrame), a⟩ :: h₁ ∧
      (a = .ok () → if b then q = .ret () else ∃ e, q = .fail e) := by
  obtain ⟨b, h₁, rfl, hrest⟩ := ended_commitPin hf hq
  rcases b with _ | _
  · rw [if_neg Bool.false_ne_true] at hrest
    have hreject := followed_ofExcept hrest (encodeLengthPrefixed_ok.2 ⟨rfl, by decide +kernel⟩)
    obtain ⟨a, h₂, rfl, hlast⟩ := ended_writeFrame hreject hq
    exact ⟨false, a, h₂, rfl, fun ha => ⟨_, (hlast ha).of_fail.2⟩⟩
  · rw [if_pos rfl] at hrest
    have haccept := followed_ofExcept hrest
      (encodeLengthPrefixed_ok.2 ⟨rfl, accept_fits hslot hsmall⟩)
    obtain ⟨a, h₂, rfl, hlast⟩ := ended_writeFrame_last haccept hq
    exact ⟨true, a, h₂, rfl, fun ha => (hlast ha).2⟩

section Match

variable {candidates : List PinPassword} {pw : PinPassword} {d l d' l' : String} {mA₀ mA₁ : Bytes}
  {s₀ s₁ : Slot}

/-- One slot of the two sides: if its confirmation verifies at the listener, the slot runs the
dialer's PIN under the same node ids, and both sides hold the same key.

**Proof sketch.** A confirmation that verifies is made with the same key, slot and ids. Equal keys
have equal passwords, so that this one is a candidate's. -/
lemma slot_agrees {slot : ℕ} {mA mB : Bytes} {s : Slot}
    (hs : SlotSpec I candidates d' l' slot mA s) (hmsg : s.msg = C.b64Encode mB)
    (hreal : s.real = true) (hmac : C.b64Decode (confirmation C (I.slotKey pw slot d l mA mB) slot
      d l) = some (confirmMac C s.key .dialer slot d' l')) :
    d = d' ∧ l = l' ∧ candidates[slot]? = some pw ∧ s.key = I.slotKey pw slot d l mA mB := by
  obtain ⟨pw', y, hmsg', hkey, hcand⟩ := hs
  have hmB : mB = C.pakeMsgB pw' y := by
    have h := I.b64 mB
    rw [← hmsg, hmsg', I.b64] at h
    exact (Option.some.inj h).symm
  rw [confirmation, I.b64, hkey, hmB] at hmac
  obtain ⟨rfl, rfl, rfl⟩ := slotKey_confirm_inj I (Option.some.inj hmac)
  rcases hcand with ⟨-, hcand⟩ | ⟨hdummy, -⟩
  · exact ⟨rfl, rfl, hcand, by rw [hkey, hmB]⟩
  · rw [hreal] at hdummy
    simp at hdummy

/-- If some slot's confirmation verifies, everything but the claim is agreed on.

**Proof sketch.** The slot that was matched is one of the two, and each of them agrees by the lemma
before. -/
lemma match_some {mB₀ mB₁ : Bytes} {slot : ℕ} (hs₀ : SlotSpec I candidates d' l' 0 mA₀ s₀)
    (hs₁ : SlotSpec I candidates d' l' 1 mA₁ s₁) (hm₀ : s₀.msg = C.b64Encode mB₀)
    (hm₁ : s₁.msg = C.b64Encode mB₁)
    (h : matchSlot C d' l' 0 [s₀, s₁] [confirmation C (I.slotKey pw 0 d l mA₀ mB₀) 0 d l,
      confirmation C (I.slotKey pw 1 d l mA₁ mB₁) 1 d l] = some slot) :
    slot < PAKE_SLOTS ∧ d = d' ∧ l = l' ∧ pw ∈ candidates.take PAKE_SLOTS ∧
      ([s₀, s₁].map Slot.key).getD slot [] =
        [I.slotKey pw 0 d l mA₀ mB₀, I.slotKey pw 1 d l mA₁ mB₁].getD slot [] := by
  obtain ⟨-, s, c, hs, hc, hreal, hmac⟩ := matchSlot_eq_some C h
  have htake : ∀ {i : ℕ}, i < PAKE_SLOTS → candidates[i]? = some pw →
      pw ∈ candidates.take PAKE_SLOTS := fun hi hcand =>
    List.mem_of_getElem? (i := _) (by rw [List.getElem?_take_of_lt hi]; exact hcand)
  rcases slot with _ | _ | slot
  · obtain rfl : s₀ = s := by simpa using hs
    obtain rfl : _ = c := by simpa using hc
    obtain ⟨hd, hl, hcand, hkey⟩ := slot_agrees I hs₀ hm₀ hreal hmac
    exact ⟨by decide, hd, hl, htake (by decide) hcand, by simpa using hkey⟩
  · obtain rfl : s₁ = s := by simpa using hs
    obtain rfl : _ = c := by simpa using hc
    obtain ⟨hd, hl, hcand, hkey⟩ := slot_agrees I hs₁ hm₁ hreal hmac
    exact ⟨by decide, hd, hl, htake (by decide) hcand, by simpa using hkey⟩
  · simp at hs

/-- If the ids agree and the PIN stands in a slot, some slot's confirmation verifies.

**Proof sketch.** The slot in which the PIN stands runs that PIN, so its key is the dialer's, and
the confirmation that the dialer made for it is the one that the listener computes. -/
lemma match_isSome {mB₀ mB₁ : Bytes} (hs₀ : SlotSpec I candidates d l 0 mA₀ s₀)
    (hs₁ : SlotSpec I candidates d l 1 mA₁ s₁) (hm₀ : s₀.msg = C.b64Encode mB₀)
    (hm₁ : s₁.msg = C.b64Encode mB₁) (hpw : pw ∈ candidates.take PAKE_SLOTS) :
    (matchSlot C d l 0 [s₀, s₁] [confirmation C (I.slotKey pw 0 d l mA₀ mB₀) 0 d l,
      confirmation C (I.slotKey pw 1 d l mA₁ mB₁) 1 d l]).isSome := by
  -- the slot where the PIN stands is real, and its two keys are the same
  have slot_ok : ∀ {slot : ℕ} {mA mB : Bytes} {s : Slot}, candidates[slot]? = some pw →
      SlotSpec I candidates d l slot mA s → s.msg = C.b64Encode mB →
      s.real = true ∧ C.b64Decode (confirmation C (I.slotKey pw slot d l mA mB) slot d l) =
        some (confirmMac C s.key .dialer slot d l) := by
    rintro slot mA mB s hcand ⟨pw', y, hmsg', hkey, hc⟩ hmsg
    have hmB : mB = C.pakeMsgB pw' y := by
      have h := I.b64 mB
      rw [← hmsg, hmsg', I.b64] at h
      exact (Option.some.inj h).symm
    rcases hc with ⟨hreal, hc⟩ | ⟨-, hc⟩
    · obtain rfl : pw' = pw := by rw [hcand] at hc; exact (Option.some.inj hc).symm
      exact ⟨hreal, by rw [confirmation, I.b64, hkey, hmB]⟩
    · rw [hcand] at hc
      simp at hc
  obtain ⟨i, hi⟩ := List.mem_iff_getElem?.1 hpw
  have hlt : i < PAKE_SLOTS := by
    by_contra hge
    rw [List.getElem?_take, if_neg (by omega)] at hi
    simp at hi
  rw [List.getElem?_take_of_lt hlt] at hi
  obtain rfl | rfl : i = 0 ∨ i = 1 := by unfold PAKE_SLOTS at hlt; omega
  · obtain ⟨hreal, hmac⟩ := slot_ok hi hs₀ hm₀
    exact matchSlot_isSome C (i := 0) rfl rfl hreal hmac
  · obtain ⟨hreal, hmac⟩ := slot_ok hi hs₁ hm₁
    exact matchSlot_isSome C (i := 1) rfl rfl hreal hmac

end Match

include I in
/-- The listener's verdict on a slot whose key it shares with the dialer passes the dialer's last
check. -/
lemma checkConfirm_accept {keys : List Bytes} {d l : String} {slot : ℕ} {key : Bytes}
    (hslot : slot < PAKE_SLOTS) (hkey : key = keys.getD slot []) :
    checkConfirm C keys d l (.accept slot (C.b64Encode (confirmMac C key .listener slot d l))) =
      .ok () := by
  simp only [checkConfirm, PinConfirm.accept, Bool.not_true, Bool.false_eq_true, if_false, hslot,
    if_true, decodeB64, I.b64, hkey, bind, Except.bind]

/-- A verdict that turns the dialer away is an error, whatever the keys are. -/
lemma checkConfirm_rejected (C : Crypto) (keys : List Bytes) (d l reason : String) :
    ∃ e, checkConfirm C keys d l (.rejected reason) = .error e :=
  ⟨_, rfl⟩

include I in
/-- **The outcome of a complete joint run.** Whatever the order of the two sides' steps, when both
have ended both have accepted if they agree, and neither has if they do not.

**Proof sketch.** Each side's history is read from its start. A write succeeds, and a read returns
the frame at its place in the other side's writes, so each turn finds the frame the other side's
last turn wrote, and the verdict is the match of the dialer's confirmations with the listener's
slots. -/
theorem joint_outcome {candidates : List PinPassword} {pin d l d' l' : String} {commit : Bool}
    (hd : d.utf8ByteSize ≤ 64) (hl : l.utf8ByteSize ≤ 64) {h h' : List HandshakeEvt}
    {p q : Handshake Unit} (hJ : Joint (fun _ _ => True) (Commits commit)
      (dialerHandshake C pin d l) (listenerSession C candidates d' l') h p h' q)
    (hp : p.Ended) (hq : q.Ended) :
    (Agreed C candidates pin d l d' l' commit → p = .ret () ∧ q = .ret ()) ∧
      (¬ Agreed C candidates pin d l d' l' commit → p ≠ .ret () ∧ q ≠ .ret ()) := by
  obtain ⟨r₀', h₁', rfl, herr₀', hopen'⟩ := listener_opens I hJ.follows_right hq
  rcases hpw : C.deriveAuthKeyMaterial pin with e | pw
  · -- the dialer gives up before it writes anything
    have hf := hJ.follows_left
    simp only [dialerHandshake, hpw, Prog.ofExcept_error, Prog.fail_bind] at hf
    obtain ⟨rfl, rfl⟩ := hf.of_fail
    have hnot : ¬ Agreed C candidates pin d l d' l' commit := by
      rintro ⟨-, -, ⟨pw, hpw', -⟩, -⟩
      rw [hpw] at hpw'
      simp at hpw'
    refine ⟨fun ha => (hnot ha).elim, fun _ => ⟨by simp, ?_⟩⟩
    rcases r₀' with e' | frame
    · rw [herr₀' e' rfl]
      simp
    · have := hJ.swap.read_ok_left [] _ rfl
      simp [writes] at this
  · obtain ⟨x₀, x₁, pre, h₁, a₀, hpre, rfl, hconfirm⟩ := dialer_opens I hpw hJ.follows_left hp
    have ha₀ := hJ.write_left _ _ _ _ rfl
    subst ha₀
    obtain ⟨r₁, h₂, rfl, hanswer⟩ := dialer_confirms I hd hl (hconfirm rfl) hp
    -- the listener reads the request
    have hfit₀ := (pakes_fit (I.msgA_small pw x₀) (I.msgA_small pw x₁)).1
    have hr₀' := hJ.swap.read_left [] _ _ _ (requestFrame C pw x₀ x₁) rfl
      (by simp [hpre.2]) hfit₀
    obtain ⟨pre', h₂', s₀, s₁, a₀', hpre', hs₀, hs₁, rfl, hverify⟩ := hopen' pw x₀ x₁ hr₀'
    subst hr₀'
    have ha₀' := hJ.swap.write_left (⟨.read MAX_CONTROL_MESSAGE_SIZE, _⟩ :: pre') _ _ _ rfl
    subst ha₀'
    obtain ⟨r₁', h₃', rfl, hverdict⟩ := listener_verifies (hverify rfl) hq
    -- the dialer reads the challenge
    obtain ⟨pw₀, y₀, hm₀, hk₀, hc₀⟩ := id hs₀
    obtain ⟨pw₁, y₁, hm₁, hk₁, hc₁⟩ := id hs₁
    have hfit₁ := (pakes_fit (I.msgB_small pw₀ y₀) (I.msgB_small pw₁ y₁)).2.1
    rw [← hm₀, ← hm₁] at hfit₁
    have hr₁ := hJ.read_left (pre ++ [⟨.write (requestFrame C pw x₀ x₁), .ok ()⟩])
      h₂ MAX_CONTROL_MESSAGE_SIZE r₁ (PinChallenge.new [s₀.msg, s₁.msg]).toFrame (by simp)
      (by simp [hpre.1, hpre'.2]) hfit₁
    rw [hm₀, hm₁] at hr₁
    obtain ⟨a₁, h₃, k₀, k₁, hk₀', hk₁', rfl, hlast⟩ := hanswer pw₀ pw₁ y₀ y₁ hr₁
    have ha₁ := hJ.write_left (pre ++ [⟨.write (requestFrame C pw x₀ x₁), .ok ()⟩,
      ⟨.read MAX_CONTROL_MESSAGE_SIZE, r₁⟩]) h₃
      (PinResponse.new [confirmation C k₀ 0 d l, confirmation C k₁ 1 d l]).toFrame a₁ (by simp)
    subst ha₁
    obtain ⟨r₂, h₄, rfl, hcheck⟩ := dialer_verifies (hlast rfl) hp
    -- the listener reads the confirmations
    have hfit₂ := (pakes_fit
      (I.mac_small pw pw x₀ pw₀ y₀ .dialer 0 d l (by decide) hd hl)
      (I.mac_small pw pw x₁ pw₁ y₁ .dialer 1 d l (by decide) hd hl)).2.2
    have hr₁' := hJ.swap.read_left
      (⟨.read MAX_CONTROL_MESSAGE_SIZE, .ok (requestFrame C pw x₀ x₁)⟩ ::
        (pre' ++ [⟨.write (PinChallenge.new [s₀.msg, s₁.msg]).toFrame, .ok ()⟩])) h₃'
      MAX_CONTROL_MESSAGE_SIZE r₁'
      (PinResponse.new [confirmation C k₀ 0 d l, confirmation C k₁ 1 d l]).toFrame (by simp)
      (by simp [hpre.2, hpre'.1]) (by rw [hk₀', hk₁']; exact hfit₂)
    have hfinal := hverdict _ _ hr₁'
    -- where the dialer's last read stands, and what it returns for each verdict
    have hverdict_read : ∀ {frame : Frame} {confirm : PinConfirm}, (writes h₃')[0]? = some frame →
        frame.size ≤ MAX_CONTROL_MESSAGE_SIZE → decodePinConfirm frame = .ok confirm →
        p = .ofExcept (checkConfirm C [k₀, k₁] d l confirm) := by
      intro frame confirm hw hsize hdec
      refine hcheck frame confirm (hJ.read_left (pre ++
        [⟨.write (requestFrame C pw x₀ x₁), .ok ()⟩, ⟨.read MAX_CONTROL_MESSAGE_SIZE, r₁⟩,
        ⟨.write (PinResponse.new [confirmation C k₀ 0 d l, confirmation C k₁ 1 d l]).toFrame,
          .ok ()⟩]) h₄ _ _ _ (by simp) ?_ hsize) hdec
      simpa [hpre.1, hpre'.2] using hw
    have hrejected : ∀ {reason : String},
        (writes h₃')[0]? = some (PinConfirm.rejected reason).toFrame →
        (PinConfirm.rejected reason).toFrame.size ≤ MAX_CONTROL_MESSAGE_SIZE → p ≠ .ret () := by
      intro reason hw hsize
      obtain ⟨e, he⟩ := checkConfirm_rejected C [k₀, k₁] d l reason
      rw [hverdict_read hw hsize (decodePinConfirm_rejected reason), he]
      simp
    have hwritten : ∀ {f : Frame} {a : Except Error Unit} {s t : List HandshakeEvt},
        h₃' = s ++ ⟨.write f, a⟩ :: t → a = .ok () := by
      intro f a s t hs
      refine hJ.swap.write_left
        (⟨.read MAX_CONTROL_MESSAGE_SIZE, .ok (requestFrame C pw x₀ x₁)⟩ ::
          (pre' ++ [⟨.write (PinChallenge.new [s₀.msg, s₁.msg]).toFrame, .ok ()⟩,
          ⟨.read MAX_CONTROL_MESSAGE_SIZE, r₁'⟩] ++ s)) t f a ?_
      rw [hs]
      simp
    rw [hk₀', hk₁'] at hfinal
    rcases hmatch : matchSlot C d' l' 0 [s₀, s₁]
        [confirmation C (I.slotKey pw 0 d l (C.pakeMsgA pw x₀) (C.pakeMsgB pw₀ y₀)) 0 d l,
        confirmation C (I.slotKey pw 1 d l (C.pakeMsgA pw x₁) (C.pakeMsgB pw₁ y₁)) 1 d l]
      with _ | slot
    · -- no slot matched, so the two sides do not agree
      rw [hmatch] at hfinal
      obtain ⟨a, h₄', rfl, hq'⟩ := verdict_none hfinal hq
      have ha := hwritten (s := []) rfl
      subst ha
      obtain ⟨e, rfl⟩ := hq' rfl
      refine ⟨?_, fun _ => ⟨hrejected rfl (by decide +kernel), by simp⟩⟩
      rintro ⟨rfl, rfl, ⟨pw', hpw', hmem⟩, -⟩
      obtain rfl : pw = pw' := by rw [hpw] at hpw'; exact Except.ok.inj hpw'
      have hsome := match_isSome I hs₀ hs₁ hm₀ hm₁ hmem
      rw [hmatch] at hsome
      simp at hsome
    · -- a slot matched, and the claim decides
      rw [hmatch] at hfinal
      obtain ⟨hslot, rfl, rfl, hmem, hkeys⟩ := match_some I hs₀ hs₁ hm₀ hm₁ hmatch
      rw [← hk₀', ← hk₁'] at hkeys
      have hsmall : (jsonString (C.b64Encode (confirmMac C (([s₀, s₁].map Slot.key).getD slot [])
          .listener slot d l))).utf8ByteSize ≤ 4096 := by
        obtain rfl | rfl : slot = 0 ∨ slot = 1 := by unfold PAKE_SLOTS at hslot; omega
        · simp only [List.map, List.getD_cons_zero, hk₀]
          exact I.mac_small pw₀ pw x₀ pw₀ y₀ .listener 0 d l hslot hd hl
        · simp only [List.map, List.getD_cons_succ, List.getD_cons_zero, hk₁]
          exact I.mac_small pw₁ pw x₁ pw₁ y₁ .listener 1 d l hslot hd hl
      obtain ⟨b, a, h₄', rfl, hq'⟩ := verdict_some hslot hsmall hfinal hq
      have ha := hwritten (s := [⟨.commitPin, b⟩]) rfl
      subst ha
      have hb : b = commit := by
        obtain ⟨_, _, -, -, hans⟩ := hJ.swap.answered_left
          (⟨.read MAX_CONTROL_MESSAGE_SIZE, .ok (requestFrame C pw x₀ x₁)⟩ ::
          (pre' ++ [⟨.write (PinChallenge.new [s₀.msg, s₁.msg]).toFrame, .ok ()⟩,
          ⟨.read MAX_CONTROL_MESSAGE_SIZE, r₁'⟩])) _ ⟨.commitPin, b⟩ (by simp; rfl)
        exact hans
      have hagreed : Agreed C candidates pin d l d l commit ↔ commit = true :=
        ⟨fun ha => ha.2.2.2, fun hc => ⟨rfl, rfl, ⟨pw, hpw, hmem⟩, hc⟩⟩
      rw [hagreed, ← hb]
      rcases b with _ | _
      · obtain ⟨e, rfl⟩ := hq' rfl
        refine ⟨by simp, fun _ => ⟨hrejected rfl (by decide +kernel), by simp⟩⟩
      · have haccepted := hverdict_read rfl (accept_fits hslot hsmall)
          (decodePinConfirm_accept (Nat.lt_trans hslot (by decide)) _)
        rw [checkConfirm_accept I hslot hkeys] at haccepted
        exact ⟨fun _ => ⟨haccepted, hq' rfl⟩, by simp⟩

/-! ## Completion -/

/-- The dialer reads after its first write and after its second.

**Proof sketch.** By following the program and counting what was written and read. -/
lemma dialer_turns (pin d l : String) :
    Prog.Safe WritesOk (ReadsAt [(0, 1), (1, 2)]) (fun _ _ => True) []
      (dialerHandshake C pin d l) := by
  unfold dialerHandshake
  rw [Prog.safe_ofExcept_bind]
  refine ⟨fun pw _ => ?_, fun _ _ => trivial⟩
  refine (Prog.Safe.each (N := Quiet) (P := fun _ _ => True) (fun _ _ h hN => ?_)
    ⟨rfl, rfl⟩).bind ?_ fun _ _ _ => trivial
  · exact ⟨trivial, fun (x : ℕ) _ => ⟨⟨by simp [hN.1], by simp [hN.2]⟩, fun _ _ => trivial⟩⟩
  intro h states hQ
  have hN := hQ.1
  rw [Prog.safe_ofExcept_bind]
  refine ⟨fun request _ => ?_, fun _ _ => trivial⟩
  rw [safe_writeFrame_bind]
  refine ⟨trivial, fun _ => ?_, fun _ _ => trivial⟩
  unfold dialerConfirm
  rw [safe_readLengthPrefixed_bind]
  refine ⟨by simp [ReadsAt, hN.1, hN.2], fun frame _ => ?_, fun _ _ => trivial⟩
  rw [Prog.safe_ofExcept_bind]
  refine ⟨fun challenge _ => ?_, fun _ _ => trivial⟩
  rw [safe_ensure_bind]
  refine ⟨fun _ => ?_, fun _ => trivial⟩
  rw [Prog.safe_ofExcept_bind]
  refine ⟨fun finished _ => ?_, fun _ _ => trivial⟩
  rw [Prog.safe_ofExcept_bind]
  refine ⟨fun response _ => ?_, fun _ _ => trivial⟩
  rw [safe_writeFrame_bind]
  refine ⟨trivial, fun _ => ?_, fun _ _ => trivial⟩
  unfold dialerVerify
  rw [safe_readLengthPrefixed_bind]
  refine ⟨by simp [ReadsAt, hN.1, hN.2], fun frame _ => ?_, fun _ _ => trivial⟩
  rw [Prog.safe_ofExcept_bind]
  refine ⟨fun confirm _ => ?_, fun _ _ => trivial⟩
  rcases checkConfirm C _ d l confirm <;> trivial

/-- A rejection reads nothing. -/
lemma reject_turns (reason error : String) (h : List HandshakeEvt) (turns : List (ℕ × ℕ)) :
    Prog.Safe WritesOk (ReadsAt turns) (fun _ _ => True) h (reject reason error) := by
  unfold reject
  rw [Prog.safe_ofExcept_bind]
  refine ⟨fun frame _ => ?_, fun _ _ => trivial⟩
  rw [safe_writeFrame_bind]
  exact ⟨trivial, fun _ => trivial, fun _ _ => trivial⟩

/-- The verdict reads nothing.

**Proof sketch.** By the outcome of the search and of the claim. Each of them writes a verdict, and
ends. -/
lemma verdict_turns (slots : List Slot) (d l : String) (m : Option ℕ) (h : List HandshakeEvt)
    (turns : List (ℕ × ℕ)) :
    Prog.Safe WritesOk (ReadsAt turns) (fun _ _ => True) h (verdict C slots d l m) := by
  rcases m with _ | slot
  · exact reject_turns "PIN authentication failed"
      "no recent PIN matched the dialer's PAKE confirmation (wrong or expired PIN)" h turns
  · simp only [verdict]
    rw [safe_commitPin_bind]
    refine ⟨trivial, fun b _ => ?_⟩
    rcases b with _ | _
    · exact reject_turns "listener already paired with another device"
        "valid PIN but the listener paired with another device first" _ turns
    · rw [if_pos rfl]
      unfold accept
      rw [Prog.safe_ofExcept_bind]
      refine ⟨fun frame _ => ⟨trivial, fun (r : Except Error Unit) _ => ?_⟩, fun _ _ => trivial⟩
      rcases r <;> trivial

/-- The listener reads before its first write and after it.

**Proof sketch.** By following the program and counting what was written and read; the slots do
neither. -/
lemma listener_turns (candidates : List PinPassword) (d l : String) :
    Prog.Safe WritesOk (ReadsAt [(0, 0), (1, 1)]) (fun _ _ => True) []
      (listenerSession C candidates d l) := by
  unfold listenerSession
  rw [safe_readLengthPrefixed_bind]
  refine ⟨by simp [ReadsAt], fun frame _ => ?_, fun _ _ => trivial⟩
  rw [Prog.safe_ofExcept_bind]
  refine ⟨fun request _ => ?_, fun _ _ => trivial⟩
  rcases request with _ | ⟨version, pakes⟩
  · trivial
  show Prog.Safe _ _ _ _ (listenerHandshake C candidates pakes d l)
  unfold listenerHandshake
  rw [safe_ensure_bind]
  refine ⟨fun _ => ?_, fun _ => trivial⟩
  refine (Prog.Safe.each (N := fun h => readCount h = 1 ∧ writes h = [])
    (P := fun _ _ => True) (fun slot _ h hN => ?_) ⟨by simp, by simp⟩).bind ?_ fun _ _ _ => trivial
  · unfold listenerSlot slotPassword
    refine Prog.Safe.bind (Q := fun h _ => readCount h = 1 ∧ writes h = []) ?_ ?_
      fun _ _ h => ⟨h, fun _ _ => trivial⟩
    · split
      · exact hN
      · exact ⟨trivial, fun (pw : PinPassword) _ => ⟨by simp [hN.1], by simp [hN.2]⟩⟩
    · rintro h' ⟨real, password⟩ hN'
      show Prog.Safe _ _ _ _ (randomScalar >>= fun y => _)
      rw [safe_randomScalar_bind]
      refine ⟨trivial, fun y _ => ?_⟩
      have hN'' : readCount (h' ++ [⟨.randomScalar, y⟩]) = 1 ∧
          writes (h' ++ [⟨.randomScalar, y⟩]) = [] := ⟨by simp [hN'.1], by simp [hN'.2]⟩
      rw [Prog.safe_ofExcept_bind]
      refine ⟨fun msgA _ => ?_, fun _ _ => ⟨hN'', fun _ _ => trivial⟩⟩
      rw [Prog.safe_ofExcept_bind]
      exact ⟨fun key _ => ⟨hN'', fun _ _ => trivial⟩, fun _ _ => ⟨hN'', fun _ _ => trivial⟩⟩
  intro h slots hQ
  have hN := hQ.1
  rw [Prog.safe_ofExcept_bind]
  refine ⟨fun challenge _ => ?_, fun _ _ => trivial⟩
  rw [safe_writeFrame_bind]
  refine ⟨trivial, fun _ => ?_, fun _ _ => trivial⟩
  unfold listenerVerify
  rw [safe_readLengthPrefixed_bind]
  refine ⟨by simp [ReadsAt, hN.1, hN.2], fun frame _ => ?_, fun _ _ => trivial⟩
  rw [Prog.safe_ofExcept_bind]
  refine ⟨fun response _ => ?_, fun _ _ => trivial⟩
  rw [safe_ensure_bind]
  exact ⟨fun _ => verdict_turns slots d l _ _ _, fun _ => trivial⟩

/-- **Every joint run can be completed**: the two sides never both wait, and no run is endless.

**Proof sketch.** In a joint state in which both sides wait for a frame, one of them has been sent
one, by the turns of the two programs. So there is always a step, and both programs are finite. -/
theorem joint_completes {candidates : List PinPassword} {pin d l d' l' : String} {commit : Bool}
    {h h' : List HandshakeEvt} {p q : Handshake Unit}
    (hJ : Joint (fun _ _ => True) (Commits commit) (dialerHandshake C pin d l)
      (listenerSession C candidates d' l') h p h' q) :
    ∃ h₁ p₁ h₁' q₁, h <+: h₁ ∧ h' <+: h₁' ∧ Joint (fun _ _ => True) (Commits commit)
      (dialerHandshake C pin d l) (listenerSession C candidates d' l') h₁ p₁ h₁' q₁ ∧
      p₁.Ended ∧ q₁.Ended := by
  have inhabited : ∀ o : Op, Nonempty (Ans o) := by
    intro o
    rcases o
    case randomPassword => exact ⟨(⟨List.replicate 32 0, rfl⟩ : PinPassword)⟩
    case sessionStream | write | admitKey => exact ⟨(.ok () : Except Error Unit)⟩
    case read => exact ⟨(.error (.msg "") : Except Error Frame)⟩
    case randomNonce | signAuth => exact ⟨("" : String)⟩
    case commitKey | commitPin => exact ⟨true⟩
    case candidates => exact ⟨([] : List PinPassword)⟩
    case randomScalar => exact ⟨(0 : ℕ)⟩
  refine hJ.completes fun h p' h' q' hJ' => hJ'.progress (fun o => ?_) (fun o => ?_) ?_
  · obtain ⟨a⟩ := inhabited o
    exact ⟨a, trivial⟩
  · obtain ⟨a⟩ := inhabited o
    rcases o
    case commitPin => exact ⟨commit, rfl⟩
    all_goals exact ⟨a, trivial⟩
  · intro h h' max max' k k' hJ'
    have hread := ((dialer_turns pin d l).sound hJ'.follows_left hJ'.writes_ok).2.1
    have hread' := ((listener_turns candidates d' l').sound hJ'.follows_right
      hJ'.swap.writes_ok).2.1
    simp only [ReadsAt, List.nil_append, List.mem_cons, Prod.mk.injEq, List.not_mem_nil,
      or_false] at hread hread'
    omega

end Duocb.PinAuth
