import Duocb.Handshake

set_option relaxedAutoImplicit false
set_option autoImplicit false

/-!
# Card-setup PIN mutual authentication

A SPAKE2 PAKE carried in-band over the established connection. The handshake runs `PAKE_SLOTS`
independent instances: the dialer enters its one PIN in every slot, the listener its i-th most
recent PIN in slot i, with a random password in the slots beyond its cache.

```text
D→L: AuthRequest::Pin { pakes }        L→D: PinChallenge { pakes }
D→L: PinResponse { confirms }          L→D: PinConfirm { accepted, slot, confirm }
```

## Main definitions

* `Duocb.PinAuth.dialerHandshake`, `Duocb.PinAuth.listenerHandshake` — the two halves.
* `Duocb.PinAuth.listenerSession` — a card-setup listener from the opening frame on.
* `Duocb.PinAuth.matchSlot` — the slot whose confirmation verified.

## Main results

* `Duocb.PinAuth.matchSlot_eq_some` — the slot that matches is a real one whose MAC verified.
-/

namespace Duocb.PinAuth

/-- Domain separator of the SPAKE2 identity strings and of every confirmation transcript. -/
def PAKE_DOMAIN : String := "duocb:pin-pake:v1"

/-- Independent SPAKE2 instances per handshake. -/
def PAKE_SLOTS : ℕ := 2

/-- Which side produced a confirmation. -/
inductive Direction where
  | dialer
  | listener
  deriving DecidableEq

/-- The direction as it stands in a transcript. -/
def Direction.asStr : Direction → String
  | dialer => "dialer"
  | listener => "listener"

/-- The SPAKE2 identity pair for one slot: role, slot index, and that side's node id. -/
def pakeIdentities (slot : ℕ) (idD idL : String) : Bytes × Bytes :=
  (utf8 (PAKE_DOMAIN ++ "|dialer|" ++ toString slot ++ "|" ++ idD),
    utf8 (PAKE_DOMAIN ++ "|listener|" ++ toString slot ++ "|" ++ idL))

/-- What a confirmation MAC is taken over. -/
def confirmText (dir : Direction) (slot : ℕ) (idD idL : String) : Bytes :=
  utf8 (PAKE_DOMAIN ++ "|confirm|" ++ dir.asStr ++ "|" ++ toString slot ++ "|" ++ idD ++ "|" ++ idL)

section Halves

variable (C : Crypto)

/-- The key-confirmation MAC for `dir` at `slot`. -/
def confirmMac (key : Bytes) (dir : Direction) (slot : ℕ) (idD idL : String) : Bytes :=
  C.hmac key (confirmText dir slot idD idL)

/-- Decode one base64url wire field, naming it on failure. -/
def decodeB64 (value what : String) : Except Error Bytes :=
  match C.b64Decode value with
  | some b => .ok b
  | none => .error (.msg s!"decoding {what}")

/-- The error of a slot whose instance could not be finished. -/
def finishError (slot : ℕ) (r : Except Error Bytes) : Except Error Bytes :=
  r.mapError fun e => .msg s!"finishing PAKE slot {slot}: {e.display}"

/-! ## The dialer -/

/-- Start the dialer's instance of a slot: its secret scalar and its message. -/
def startSlotA (password : PinPassword) : Handshake (ℕ × String) := do
  let x ← randomScalar
  return (x, C.b64Encode (C.pakeMsgA password x))

/-- Finish one slot and confirm its key. It needs the listener's message of that slot, and it can
fail where that is no message. -/
def finishSlot (password : PinPassword) (dialerId listenerId : String) (slot x : ℕ)
    (msgB : String) : Except Error (Bytes × String) := do
  let msgB ← decodeB64 C msgB "the listener's PAKE message"
  let ids := pakeIdentities slot dialerId listenerId
  let key ← finishError slot (C.pakeFinishA password ids.1 ids.2 x msgB)
  return (key, C.b64Encode (confirmMac C key .dialer slot dialerId listenerId))

/-- Finish every slot in order. The scalars and the messages are taken side by side, and the first
slot that fails ends it. -/
def finishSlots (password : PinPassword) (dialerId listenerId : String) :
    ℕ → List ℕ → List String → Except Error (List (Bytes × String))
  | slot, x :: xs, msgB :: msgs => do
    let first ← finishSlot C password dialerId listenerId slot x msgB
    let rest ← finishSlots password dialerId listenerId (slot + 1) xs msgs
    return first :: rest
  | _, _, _ => .ok []

/-- The dialer's last check: the verdict names a slot in range and carries the listener's own
confirmation for it. -/
def checkConfirm (keys : List Bytes) (dialerId listenerId : String) (confirm : PinConfirm) :
    Except Error Unit := do
  if !confirm.accepted then
    let reason := confirm.reason.getD "unknown"
    .error (.msg s!"PIN authentication rejected: {reason}")
  else
    match confirm.slot with
    | none => .error (.msg "listener accepted but named no slot")
    | some slot =>
      if slot < PAKE_SLOTS then
        match confirm.confirm with
        | none => .error (.msg "listener accepted but sent no confirmation")
        | some mac =>
          let mac ← decodeB64 C mac "the listener's confirmation"
          if mac = confirmMac C (keys.getD slot []) .listener slot dialerId listenerId then .ok ()
          else .error (.msg "listener failed to prove PIN possession (wrong peer?)")
      else .error (.msg s!"listener named out-of-range slot {slot}")

/-- The dialer's last turn: the verdict and the listener's own confirmation. -/
def dialerVerify (keys : List Bytes) (dialerId listenerId : String) : Handshake Unit := do
  let confirmBytes ← readLengthPrefixed MAX_CONTROL_MESSAGE_SIZE
  let confirm ← .ofExcept (withContext (decodePinConfirm confirmBytes) "reading PIN confirm")
  .ofExcept (checkConfirm C keys dialerId listenerId confirm)

/-- The dialer's second turn: finish every slot with the listener's messages and confirm its key.
The number of messages is checked before any of them is used, and all confirmations are sent in one
message. -/
def dialerConfirm (password : PinPassword) (dialerId listenerId : String) (scalars : List ℕ) :
    Handshake Unit := do
  let challengeBytes ← readLengthPrefixed MAX_CONTROL_MESSAGE_SIZE
  let challenge ← .ofExcept
    (withContext (decodePinChallenge challengeBytes) "reading PIN challenge")
  ensure (challenge.pakes.length = PAKE_SLOTS)
    (.msg s!"listener sent {challenge.pakes.length} PAKE messages, expected {PAKE_SLOTS}")
  let finished ← .ofExcept
    (finishSlots C password dialerId listenerId 0 scalars challenge.pakes)
  writeFrame (← .ofExcept (encodePinResponse (.new (finished.map Prod.snd))))
  dialerVerify C (finished.map Prod.fst) dialerId listenerId

/-- Drive the dialer's half of the PIN handshake on an opened stream. -/
def dialerHandshake (canonicalPin dialerId listenerId : String) : Handshake Unit := do
  let password ← .ofExcept (C.deriveAuthKeyMaterial canonicalPin)
  let states ← Prog.each (fun _ => startSlotA C password) (List.range PAKE_SLOTS)
  writeFrame (← .ofExcept (encodeAuthRequest (.pinRequest (states.map Prod.snd))))
  dialerConfirm C password dialerId listenerId (states.map Prod.fst)

/-! ## The listener -/

/-- A slot of the listener: whether it runs a PIN or a dummy, its key and its message. -/
structure Slot where
  real : Bool
  key : Bytes
  msg : String
  deriving DecidableEq

/-- The password of a slot: the PIN that stands there, or an unguessable dummy. A listener runs
every slot, so that a dialer cannot tell how many PINs it honours. -/
def slotPassword (candidates : List PinPassword) (slot : ℕ) : Handshake (Bool × PinPassword) :=
  match candidates[slot]? with
  | some material => .ret (true, material)
  | none => do
    let dummy ← randomPassword
    return (false, dummy)

/-- Run the listener's instance of a slot against the dialer's message. It draws its scalar,
finishes the key of the slot, and makes the message for the dialer; whether a PIN stands behind it
is kept. -/
def listenerSlot (candidates : List PinPassword) (dialerPakes : List String)
    (dialerId listenerId : String) (slot : ℕ) : Handshake Slot := do
  let (real, password) ← slotPassword candidates slot
  let y ← randomScalar
  let ids := pakeIdentities slot dialerId listenerId
  let msgA ← .ofExcept (decodeB64 C (dialerPakes.getD slot "") "the dialer's PAKE message")
  let key ← .ofExcept (finishError slot (C.pakeFinishB password ids.1 ids.2 y msgA))
  return ⟨real, key, C.b64Encode (C.pakeMsgB password y)⟩

/-- The first real slot whose confirmation verifies. A confirmation that does not decode is
skipped. -/
def matchSlot (dialerId listenerId : String) : ℕ → List Slot → List String → Option ℕ
  | slot, s :: slots, c :: confirms =>
    match C.b64Decode c with
    | none => matchSlot dialerId listenerId (slot + 1) slots confirms
    | some mac =>
      if s.real ∧ mac = confirmMac C s.key .dialer slot dialerId listenerId then some slot
      else matchSlot dialerId listenerId (slot + 1) slots confirms
  | _, _, _ => none

/-- Confirm the slot that matched with our own MAC. -/
def accept (slots : List Slot) (dialerId listenerId : String) (slot : ℕ) : Handshake Unit := do
  let mac := confirmMac C ((slots.map Slot.key).getD slot []) .listener slot dialerId listenerId
  writeFrame (← .ofExcept (encodePinConfirm (.accept slot (C.b64Encode mac))))

/-- Reject with a reason on the wire and an error here. -/
def reject (reason error : String) : Handshake Unit := do
  writeFrame (← .ofExcept (encodePinConfirm (.rejected reason)))
  .fail (.msg error)

/-- The listener's verdict: confirm or reject. Even once a slot verified, `commit` has the final
say before acceptance is written. -/
def verdict (slots : List Slot) (dialerId listenerId : String) : Option ℕ → Handshake Unit
  | some slot => do
    let committed ← commitPin
    if committed then accept C slots dialerId listenerId slot
    else
      reject "listener already paired with another device"
        "valid PIN but the listener paired with another device first"
  | none => reject "PIN authentication failed"
      "no recent PIN matched the dialer's PAKE confirmation (wrong or expired PIN)"

/-- The listener's last turn: the dialer's confirmations, and the verdict. The number of
confirmations is checked before any of them is compared. -/
def listenerVerify (slots : List Slot) (dialerId listenerId : String) : Handshake Unit := do
  let responseBytes ← readLengthPrefixed MAX_CONTROL_MESSAGE_SIZE
  let response ← .ofExcept (withContext (decodePinResponse responseBytes) "reading PIN response")
  ensure (response.confirms.length = PAKE_SLOTS)
    (.msg s!"dialer sent {response.confirms.length} confirmations, expected {PAKE_SLOTS}")
  verdict C slots dialerId listenerId (matchSlot C dialerId listenerId 0 slots response.confirms)

/-- Drive the listener's half, after the opening request has been read off the stream. It runs all
slots before it sends anything, and all of their messages are in one. -/
def listenerHandshake (candidates : List PinPassword) (dialerPakes : List String)
    (dialerId listenerId : String) : Handshake Unit := do
  ensure (dialerPakes.length = PAKE_SLOTS)
    (.msg s!"dialer sent {dialerPakes.length} PAKE messages, expected {PAKE_SLOTS}")
  let slots ← Prog.each (listenerSlot C candidates dialerPakes dialerId listenerId)
    (List.range PAKE_SLOTS)
  writeFrame (← .ofExcept (encodePinChallenge (.new (slots.map Slot.msg))))
  listenerVerify C slots dialerId listenerId

/-- A card-setup listener on an accepted stream: read the opening request, and run the PIN
handshake if that is what it asks for. -/
def listenerSession (candidates : List PinPassword) (dialerId listenerId : String) :
    Handshake Unit := do
  let requestBytes ← readLengthPrefixed MAX_CONTROL_MESSAGE_SIZE
  let request ← .ofExcept (withContext (decodeAuthRequest requestBytes) "Invalid auth request")
  match request with
  | .key _ _ _ => .fail (.msg "listener is not in key-auth mode")
  | .pin _ pakes => listenerHandshake C candidates pakes dialerId listenerId

/-- **The slot that matches.** It is in range, runs a real PIN, and its confirmation decodes to the
dialer's MAC under its key.

**Proof sketch.** By induction on the slots and the confirmations: a slot either matches, or is
passed over. -/
lemma matchSlot_eq_some {dialerId listenerId : String} {base slot : ℕ} {slots : List Slot}
    {confirms : List String} (h : matchSlot C dialerId listenerId base slots confirms = some slot) :
    base ≤ slot ∧ ∃ s c, slots[slot - base]? = some s ∧ confirms[slot - base]? = some c ∧
      s.real = true ∧
        C.b64Decode c = some (confirmMac C s.key .dialer slot dialerId listenerId) := by
  fun_induction matchSlot C dialerId listenerId base slots confirms with
  | case1 base s slots c confirms hdec ih =>
    obtain ⟨hle, s', c', hs, hc, hreal, hmac⟩ := ih h
    refine ⟨by omega, s', c', ?_, ?_, hreal, hmac⟩
    · rw [show slot - base = slot - (base + 1) + 1 by omega]; simpa using hs
    · rw [show slot - base = slot - (base + 1) + 1 by omega]; simpa using hc
  | case2 base s slots c confirms mac hdec hmatch =>
    obtain rfl : base = slot := by simpa using h
    exact ⟨Nat.le_refl _, s, c, by simp, by simp, hmatch.1, by rw [hdec, hmatch.2]⟩
  | case3 base s slots c confirms mac hdec hno ih =>
    obtain ⟨hle, s', c', hs, hc, hreal, hmac⟩ := ih h
    refine ⟨by omega, s', c', ?_, ?_, hreal, hmac⟩
    · rw [show slot - base = slot - (base + 1) + 1 by omega]; simpa using hs
    · rw [show slot - base = slot - (base + 1) + 1 by omega]; simpa using hc
  | case4 => simp at h

/-- A real slot whose confirmation verifies is found, at its own place or before.

**Proof sketch.** By induction along the search. A slot before this one that matches ends the search
too. -/
lemma matchSlot_isSome {dialerId listenerId : String} {base i : ℕ} {slots : List Slot}
    {confirms : List String} {s : Slot} {c : String} (hs : slots[i]? = some s)
    (hc : confirms[i]? = some c) (hreal : s.real = true)
    (hmac : C.b64Decode c = some (confirmMac C s.key .dialer (base + i) dialerId listenerId)) :
    (matchSlot C dialerId listenerId base slots confirms).isSome := by
  fun_induction matchSlot C dialerId listenerId base slots confirms generalizing i with
  | case1 base s' slots c' confirms hdec ih =>
    rcases i with _ | i
    · simp only [List.getElem?_cons_zero, Option.some.injEq] at hc
      rw [hc, hmac] at hdec
      simp at hdec
    · exact ih (by simpa using hs) (by simpa using hc) (by rw [hmac]; congr 2; omega)
  | case2 => simp
  | case3 base s' slots c' confirms mac hdec hno ih =>
    rcases i with _ | i
    · simp only [List.getElem?_cons_zero, Option.some.injEq] at hc hs
      subst hc hs
      rw [hmac] at hdec
      exact absurd ⟨hreal, by simpa using (Option.some.inj hdec).symm⟩ hno
    · exact ih (by simpa using hs) (by simpa using hc) (by rw [hmac]; congr 2; omega)
  | case4 slots base confirms hne =>
    rcases slots with _ | ⟨s', slots⟩
    · simp at hs
    · rcases confirms with _ | ⟨c', confirms⟩
      · simp at hc
      · exact (hne _ _ _ _ rfl rfl).elim

end Halves

end Duocb.PinAuth
