import Mathlib.Data.Set.Function
import Duocb.Lan.Dnssd

set_option relaxedAutoImplicit false
set_option autoImplicit false

/-!
# The record of a PIN

While a device shows a PIN it publishes its node id, encrypted under the keypair that both devices
derive from the PIN and the minute. The public half of the keypair is what the record is looked up
under: it gives the instance label on the local network, the port of the side channel, and the
author on the relays. A lookup has the keypairs of three minutes and tries them on whatever it is
shown.

## Main definitions

* `Duocb.PinSealing`, `Duocb.PinSealing.Ideal` — what the records need of libraries, and what ideal
  libraries promise.
* `Duocb.encryptPinPayload`, `Duocb.decryptPinPayload` — the record.
* `Duocb.pinInstanceName`, `Duocb.sideChannelPort` — where it is looked up.
* `Duocb.dnssdAdvertisePinRecord`, `Duocb.dnssdLookupPinRecord` — the carrier on the local network.
* `Duocb.publishPinRecord`, `Duocb.lookupPinRecord` — the relays.

## Main results

* `Duocb.decryptPinPayload_encrypt` — a record opens under its own keypair.
* `Duocb.decryptPinPayload_other` — and under no other one.
* `Duocb.readPinInstance_eq`, `Duocb.PinEvent.read_publish` — label and author lead a lookup to the
  keypair of a record.
-/

namespace Duocb

/-- What the side channel serves: the encrypted node id, and the addresses of the host. -/
structure UnicastRecord where
  e : String
  addrs : List SocketAddr

/-- What PIN records need of libraries: the public half of a keypair, encryption under it, a hash,
and the JSON of the payload and of the record that the side channel serves. Encryption takes the
randomness it draws. -/
structure PinSealing (Keys : Type) where
  publicKey : Keys → PublicKey
  encrypt : Bytes → Keys → String → Except Error String
  decrypt : Keys → String → Except Error String
  sha256 : Bytes → Bytes
  payloadToJson : String → Except Error String
  payloadFromJson : String → Except Error String
  recordToVec : UnicastRecord → Except Error Bytes
  recordFromSlice : Bytes → Except Error UnicastRecord
  /-- Reads a node id. -/
  parse : String → Option EndpointId

/-- The instance label that a public key has on the local network: its first 32 hexadecimal
digits. -/
def instanceLabel (publicKey : PublicKey) : String :=
  String.ofList (publicKey.toHex.toList.take 32)

/-- What ideal libraries promise while certain keypairs are in use: no two of them share a label,
what was encrypted under a keypair is decrypted under it and under no other, and what was written
is read back. -/
structure PinSealing.Ideal {Keys : Type} (S : PinSealing Keys) (keys : Set Keys) : Prop where
  label : keys.InjOn fun k => instanceLabel (S.publicKey k)
  opens : ∀ nonce k plain content, S.encrypt nonce k plain = .ok content →
    S.decrypt k content = .ok plain
  sealed : ∀ nonce k plain content, S.encrypt nonce k plain = .ok content →
    ∀ other ∈ keys, other ≠ k → ∃ e, S.decrypt other content = .error e
  payload : ∀ nodeId s, S.payloadToJson nodeId = .ok s → S.payloadFromJson s = .ok nodeId
  record : ∀ r body, S.recordToVec r = .ok body → S.recordFromSlice body = .ok r
  parse : ∀ id : EndpointId, S.parse id.toString = some id

variable {Keys : Type} (S : PinSealing Keys)

/-! ## The record -/

/-- Encrypt a node id into record content. -/
def encryptPinPayload (nonce : Bytes) (keys : Keys) (nodeId : EndpointId) :
    Except Error String := do
  let payload ← withContext (S.payloadToJson nodeId.toString) "serializing PIN payload"
  withContext (S.encrypt nonce keys payload) "encrypting PIN payload"

/-- Decrypt record content. Any failure reads as no record, since candidates are tried in turn. The
text is trimmed before it is read as a node id. -/
def decryptPinPayload (keys : Keys) (content : String) : Option EndpointId :=
  match S.decrypt keys content with
  | .error _ => none
  | .ok plaintext =>
    match S.payloadFromJson plaintext with
    | .error _ => none
    | .ok nodeId => S.parse (trim nodeId)

/-! ## Where it is looked up -/

/-- The DNS-SD instance label of a record keypair. -/
def pinInstanceName (keys : Keys) : String := instanceLabel (S.publicKey keys)

/-- Domain separation of the side-channel port. -/
def PORT_SALT : Bytes := utf8 "duocb:pin-side-channel-port:v1"

/-- The first port of the ephemeral range. -/
def EPHEMERAL_START : UInt16 := 49152

/-- The number of ports of the range. -/
def EPHEMERAL_LEN : UInt16 := 65535 - EPHEMERAL_START + 1

/-- A 16-bit number from its two bytes. -/
def u16FromBe (high low : UInt8) : UInt16 := high.toUInt16 * 256 + low.toUInt16

/-- The TCP port of the side channel of a record keypair. -/
def sideChannelPort (keys : Keys) : UInt16 :=
  let digest := S.sha256 (PORT_SALT ++ (S.publicKey keys).bytes)
  EPHEMERAL_START + u16FromBe (digest.getD 0 0) (digest.getD 1 0) % EPHEMERAL_LEN

/-- The keypair that a key names, where a later keypair replaces an earlier one of the same
name. -/
def byName {ι : Type} [DecidableEq ι] (name : Keys → ι) (candidates : List Keys) (i : ι) :
    Option Keys :=
  candidates.reverse.find? fun keys => name keys = i

/-! ## The carriers -/

/-- Advertise the record on the local network. -/
def dnssdAdvertisePinRecord (nonce : Bytes) (keys : Keys) (nodeId : EndpointId)
    (addrs : List SocketAddr) : Except Error Registration := do
  let content ← encryptPinPayload S nonce keys nodeId
  dnssdAdvertise PIN_SERVICE_TYPE (pinInstanceName S keys) content addrs

/-- What a lookup makes of an instance: it knows the label, and the content opens under its
keypair. -/
def readPinInstance (candidates : List Keys) (label content : String) : Option EndpointId := do
  let keys ← byName (pinInstanceName S) candidates label
  decryptPinPayload S keys content

/-- Look a record up on the local network. -/
def dnssdLookupPinRecord (candidates : List Keys) (events : List ServiceEvent) :
    Option (LanFound EndpointId) :=
  dnssdLookup PIN_SERVICE_TYPE (readPinInstance S candidates) events

/-- A relay event of the PIN kind. -/
structure PinEvent where
  pubkey : PublicKey
  createdAt : ℕ
  content : String

/-- The event that is published to the relays. -/
def publishPinRecord (nonce : Bytes) (now : ℕ) (keys : Keys) (nodeId : EndpointId) :
    Except Error PinEvent := do
  let content ← encryptPinPayload S nonce keys nodeId
  return ⟨S.publicKey keys, now, content⟩

/-- What a lookup makes of an event: its author is a candidate, and the content opens under it. -/
def PinEvent.read (candidates : List Keys) (event : PinEvent) : Option EndpointId := do
  let keys ← byName S.publicKey candidates event.pubkey
  decryptPinPayload S keys event.content

/-- The events from the newest to the oldest. -/
def newestFirst (events : List PinEvent) : List PinEvent :=
  events.mergeSort fun a b => b.createdAt ≤ a.createdAt

/-- Look a record up among the events that the relays sent, the newest first. -/
def lookupPinRecord (candidates : List Keys) (events : List PinEvent) : Option EndpointId :=
  (newestFirst events).findSome? (PinEvent.read S candidates)

/-! ## Who opens a record -/

/-- The text of a node id is left alone by `trim`. -/
lemma trim_endpointId (id : EndpointId) : trim id.toString = id.toString :=
  trim_eq_self (forall_mem_toHex (P := fun c => isWhitespace c = false) (by decide) id.bytes)

variable {S} {keys : Set Keys} {nonce : Bytes} {k : Keys} {nodeId : EndpointId} {content : String}

/-- **A record opens under its own keypair**, to the node id that was published. -/
theorem decryptPinPayload_encrypt (hS : S.Ideal keys)
    (h : encryptPinPayload S nonce k nodeId = .ok content) :
    decryptPinPayload S k content = some nodeId := by
  simp only [encryptPinPayload, bind_eq_ok, withContext_eq_ok] at h
  obtain ⟨payload, hjson, hsealed⟩ := h
  simp only [decryptPinPayload, hS.opens _ _ _ _ hsealed, hS.payload _ _ hjson, trim_endpointId,
    hS.parse]

/-- **A record opens under no other keypair** that is in use. -/
theorem decryptPinPayload_other (hS : S.Ideal keys)
    (h : encryptPinPayload S nonce k nodeId = .ok content) {other : Keys} (hother : other ∈ keys)
    (hne : other ≠ k) : decryptPinPayload S other content = none := by
  simp only [encryptPinPayload, bind_eq_ok, withContext_eq_ok] at h
  obtain ⟨payload, -, hsealed⟩ := h
  obtain ⟨e, he⟩ := hS.sealed _ _ _ _ hsealed other hother hne
  simp only [decryptPinPayload, he]

/-! ## A record that is shown is found -/

/-- A keypair that is found is a candidate of that name. -/
lemma byName_eq_some {ι : Type} [DecidableEq ι] {name : Keys → ι} {candidates : List Keys} {i : ι}
    (h : byName name candidates i = some k) : k ∈ candidates ∧ name k = i := by
  unfold byName at h
  exact ⟨List.mem_reverse.1 (List.mem_of_find?_eq_some h), by simpa using List.find?_some h⟩

/-- A keypair is found under its own name, if no two candidates share one. -/
lemma byName_self {ι : Type} [DecidableEq ι] {name : Keys → ι} {candidates : List Keys}
    (hinj : ∀ k ∈ candidates, ∀ k' ∈ candidates, name k = name k' → k = k')
    (hk : k ∈ candidates) : byName name candidates (name k) = some k := by
  obtain ⟨found, hfound⟩ : ∃ found, byName name candidates (name k) = some found := by
    rw [← Option.isSome_iff_exists, byName, List.find?_isSome]
    exact ⟨k, List.mem_reverse.2 hk, decide_eq_true rfl⟩
  obtain ⟨hmem, hname⟩ := byName_eq_some hfound
  rw [hfound, hinj found hmem k hk hname]

section Shown

variable {candidates : List Keys}

/-- The label of a record leads to its keypair. -/
lemma readPinInstance_eq (hS : S.Ideal keys) (hin : ∀ k ∈ candidates, k ∈ keys)
    (hk : k ∈ candidates)
    (h : encryptPinPayload S nonce k nodeId = .ok content) :
    readPinInstance S candidates (pinInstanceName S k) content = some nodeId := by
  have hname : byName (pinInstanceName S) candidates (pinInstanceName S k) = some k :=
    byName_self (fun a ha b hb hab => hS.label (hin a ha) (hin b hb) hab) hk
  simp only [readPinInstance, hname, Option.bind_eq_bind, Option.bind_some,
    decryptPinPayload_encrypt hS h]

/-- The author of an event leads to its keypair.

**Proof sketch.** The author's name is the public key of the candidate, and different candidates
have different names, so the key is found again and opens the content. -/
lemma PinEvent.read_publish (hS : S.Ideal keys) (hin : ∀ k ∈ candidates, k ∈ keys) {now : ℕ}
    {event : PinEvent} (hk : k ∈ candidates)
    (h : publishPinRecord S nonce now k nodeId = .ok event) :
    event.read S candidates = some nodeId := by
  simp only [publishPinRecord, bind_eq_ok] at h
  obtain ⟨content, hcontent, hevent⟩ := h
  obtain rfl := Except.ok.inj hevent
  have hname : byName S.publicKey candidates (S.publicKey k) = some k := by
    refine byName_self (fun a ha b hb hab => hS.label (hin a ha) (hin b hb) ?_) hk
    exact congrArg instanceLabel hab
  simp only [PinEvent.read, hname, Option.bind_eq_bind, Option.bind_some,
    decryptPinPayload_encrypt hS hcontent]

end Shown

end Duocb
