import Duocb.Framing.Objects
import Duocb.Net.Rendezvous.Hosting

set_option relaxedAutoImplicit false
set_option autoImplicit false

/-!
# Looking a PIN up among strangers

A device that shows a PIN publishes its node id under a keypair that follows from the PIN and the
minute. Who does not know the PIN has none of its keypairs, and can post any content that does not
open under them. The other devices publish under PINs of their own.

A lookup takes the first content that opens under one of its keypairs. So it returns an id that was
published under this very PIN, in one of the three minutes that it asks for; and whichever carrier
shows it a record of the PIN, it finds one: junk beside the record, in front of it or under its
label, on its port and by its author, is passed over.

## Main definitions

* `Duocb.PinLetter` — a record that is published under the keypair of a PIN and a minute.
* `Duocb.PinWorld` — how contents come about.
* `Duocb.PinKdf.Separates` — no two PINs and minutes share a keypair.
* `Duocb.PinRecordShown` — a carrier shows a record.

## Main results

* `Duocb.PinWorld.reachable` — records are sealed letters.
* `Duocb.resolveCardSetup_authentic` — the lookup returns an id of the PIN, and returns one whenever
  a carrier shows a record of the PIN.
-/

namespace Duocb

variable {Keys : Type}

/-- The keypairs of PINs do not coincide. -/
def PinKdf.Separates (K : PinKdf Keys) (pins : Set String) : Prop :=
  ∀ pin ∈ pins, ∀ pin' ∈ pins, ∀ bucket bucket' k, pinKeys K pin bucket = .ok k →
    pinKeys K pin' bucket' = .ok k → pin = pin' ∧ bucket = bucket'

/-- A record that is published under the keypair of a PIN and a minute. The keypair is the one that
the PIN and the minute derive, and the record names the host's node. -/
structure PinLetter (K : PinKdf Keys) (pins : Set String) where
  pin : String
  bucket : UInt64
  keys : Keys
  nodeId : EndpointId
  pin_mem : pin ∈ pins
  derived : pinKeys K pin bucket = .ok keys

section World

variable (S : PinSealing Keys) (K : PinKdf Keys) (pins : Set String) (secret : Set Keys)

/-- How contents come about: devices publish records under their PINs, and anybody posts a content
that does not decrypt under a secret keypair. -/
inductive PinWorld : Board (PinLetter K pins) String → Prop where
  | empty : PinWorld ⟨[], []⟩
  | publish {b : Board (PinLetter K pins) String} (h : PinWorld b) (l : PinLetter K pins)
      (nonce : Bytes) (content : String)
      (sealed : encryptPinPayload S nonce l.keys l.nodeId = .ok content) :
      PinWorld ⟨content :: b.posted, (l, content) :: b.sealed⟩
  | forge {b : Board (PinLetter K pins) String} (h : PinWorld b) (content : String)
      (blind : ∀ k ∈ secret, ∃ e, S.decrypt k content = .error e) :
      PinWorld ⟨content :: b.posted, b.sealed⟩

/-- PIN records as letters. -/
def pinPost : Post (PinLetter K pins) Keys String EndpointId where
  opens := decryptPinPayload S
  key l := l.keys
  text l := l.nodeId
  secret := secret

end World

section Authentic

variable {S : PinSealing Keys} {K : PinKdf Keys} {pins : Set String} {secret : Set Keys}
  {b : Board (PinLetter K pins) String}

/-- **PIN records are sealed letters**: a record opens under its own keypair only.

**Proof sketch.** By induction on the world. A record that is published opens under its own keypair,
and under no other one. A forged one opens under none of the honest ones. -/
theorem PinWorld.reachable (hS : S.Ideal secret) (h : PinWorld S K pins secret b) :
    Board.Reachable (pinPost S K pins secret) b := by
  induction h with
  | empty => exact .empty
  | @publish b h l nonce content sealed ih =>
    refine ih.letter l content (decryptPinPayload_encrypt hS sealed) ?_
    intro k hk hne
    exact decryptPinPayload_other hS sealed hk hne
  | @forge b h content blind ih =>
    refine ih.leave content ?_
    intro k hk
    obtain ⟨e, he⟩ := blind k hk
    simp only [pinPost, decryptPinPayload, he]

/-- A letter that was sealed under one of the keypairs of a PIN, with a node id. -/
def UnderKeys (b : Board (PinLetter K pins) String) (candidates : List Keys) (nodeId : EndpointId) :
    Prop :=
  ∃ l content, (l, content) ∈ b.sealed ∧ l.keys ∈ candidates ∧ l.nodeId = nodeId

/-- **What opens for a lookup was published under one of its keypairs.** -/
theorem PinWorld.underKeys (hS : S.Ideal secret) (h : PinWorld S K pins secret b)
    {candidates : List Keys} (hsecret : ∀ k ∈ candidates, k ∈ secret) {k : Keys}
    (hk : k ∈ candidates) {content : String} (hc : content ∈ b.posted) {nodeId : EndpointId}
    (hopen : decryptPinPayload S k content = some nodeId) : UnderKeys b candidates nodeId := by
  obtain ⟨l, hl, hkey, htext⟩ := (h.reachable hS).exists_sealed hc (hsecret k hk) hopen
  refine ⟨l, content, hl, ?_, htext⟩
  have hkey' : l.keys = k := hkey
  rw [hkey']
  exact hk

/-- A keypair of a lookup is one of its PIN and its three minutes. -/
lemma bucket_of_candidate (hK : K.Separates pins) {canonicalPin : String}
    (hpin : canonicalPin ∈ pins) {secs : UInt64} {candidates : List Keys}
    (hcandidates : candidateKeys K canonicalPin secs = .ok candidates) {l : PinLetter K pins}
    (hl : l.keys ∈ candidates) : l.pin = canonicalPin ∧ l.bucket ∈ lookupBuckets secs := by
  obtain ⟨bucket, hbucket, hkeys⟩ := (mem_of_mapM_eq_ok hcandidates l.keys).1 hl
  obtain ⟨hpins, hbuckets⟩ := hK _ l.pin_mem _ hpin _ _ _ l.derived hkeys
  rw [hbuckets]
  exact ⟨hpins, hbucket⟩

end Authentic

/-! ## The three carriers -/

section Carriers

variable {S : PinSealing Keys} {K : PinKdf Keys} {pins : Set String} {secret : Set Keys}
  {b : Board (PinLetter K pins) String} {v : View Keys} {candidates : List Keys}

/-- What a browse finds was published under a keypair of the lookup. -/
lemma underKeys_of_browse (hS : S.Ideal secret) (h : PinWorld S K pins secret b)
    (hsecret : ∀ k ∈ candidates, k ∈ secret) (hshown : v.PinShown S b.posted)
    {events : List ServiceEvent} (hevents : v.pinBrowse = .ok events)
    {found : LanFound EndpointId} (hfound : dnssdLookupPinRecord S candidates events = some found) :
    UnderKeys b candidates found.payload := by
  have hposted : ServicesShow b.posted (.ok events) := by
    rw [← hevents]
    exact hshown.browse
  obtain ⟨label, content, hc, hread⟩ := exists_posted_of_dnssdLookup hposted hfound
  simp only [readPinInstance, Option.bind_eq_bind, Option.bind_eq_some_iff] at hread
  obtain ⟨k, hk, hopen⟩ := hread
  exact h.underKeys hS hsecret (byName_eq_some hk).1 hc hopen

/-- So was what the side channel yields. -/
lemma underKeys_of_unicast (hS : S.Ideal secret) (h : PinWorld S K pins secret b)
    (hsecret : ∀ k ∈ candidates, k ∈ secret) (hshown : v.PinShown S b.posted) {ip : IpAddr}
    {found : LanFound EndpointId}
    (hfound : unicastLookup S (v.connect ip) (v.finished ip candidates) candidates = some found) :
    UnderKeys b candidates found.payload := by
  unfold unicastLookup at hfound
  split at hfound
  · cases hfound
  · obtain ⟨probe, -, hprobe⟩ := List.exists_of_findSome?_eq_some hfound
    obtain ⟨buf, record, hbuf, hrecord, -, k, hk, hopen⟩ := fetchAndDecrypt_eq_some hprobe
    exact h.underKeys hS hsecret hk (hshown.served _ _ _ _ hbuf hrecord) hopen

/-- So was what the relays lead to. -/
lemma underKeys_of_relays (hS : S.Ideal secret) (h : PinWorld S K pins secret b)
    (hsecret : ∀ k ∈ candidates, k ∈ secret) (hshown : v.PinShown S b.posted)
    {relays : List String} {events : List PinEvent} (hevents : v.pinEvents relays = .ok events)
    {nodeId : EndpointId} (hfound : lookupPinRecord S candidates events = some nodeId) :
    UnderKeys b candidates nodeId := by
  obtain ⟨event, hevent, hread⟩ := List.exists_of_findSome?_eq_some hfound
  simp only [PinEvent.read, Option.bind_eq_bind, Option.bind_eq_some_iff] at hread
  obtain ⟨k, hk, hopen⟩ := hread
  have hmem : event ∈ events := List.mem_mergeSort.1 hevent
  exact h.underKeys hS hsecret (byName_eq_some hk).1 (hshown.relays _ _ hevents event hmem) hopen

/-- A browse that is shown a record of a keypair finds one. -/
lemma exists_browse (hS : S.Ideal secret) (hsecret : ∀ k ∈ candidates, k ∈ secret) {k : Keys}
    (hk : k ∈ candidates) {nonce : Bytes} {nodeId : EndpointId} {addrs : List SocketAddr}
    {r : Registration} {info : ResolvedService} {events : List ServiceEvent}
    (hadvert : dnssdAdvertisePinRecord S nonce k nodeId addrs = .ok r) (hinfo : r.ResolvedAs info)
    (hmem : .serviceResolved info ∈ events) :
    ∃ found, dnssdLookupPinRecord S candidates events = some found := by
  simp only [dnssdAdvertisePinRecord, bind_eq_ok] at hadvert
  obtain ⟨content, hseal, hregister⟩ := hadvert
  have hcase : toAsciiLowercase (pinInstanceName S k ++ ("." ++ PIN_SERVICE_TYPE)) =
      pinInstanceName S k ++ ("." ++ PIN_SERVICE_TYPE) :=
    toAsciiLowercase_label _ 32 (by decide)
  have hread := readPinInstance_eq hS hsecret hk hseal
  exact exists_dnssdLookup hmem (hinfo.recognize hregister hcase hread).2

/-- A race in which the probe of a host is over finds a record. -/
lemma exists_unicast (hS : S.Ideal secret) (hsecret : ∀ k ∈ candidates, k ∈ secret) {k : Keys}
    (hk : k ∈ candidates) {nonce : Bytes} {nodeId : EndpointId} {addrs : List SocketAddr}
    {port : UInt16} {body : Bytes} {connect : UInt16 → Except Error Bytes} {finished : List Keys}
    (hadvert : unicastAdvertise S nonce k nodeId addrs = .ok (port, body))
    (hserved : connect port = .ok body) (hfinished : k ∈ finished) :
    ∃ found, unicastLookup S connect finished candidates = some found := by
  have hne : candidates ≠ [] := List.ne_nil_of_mem hk
  have hprobe := fetchAndDecrypt_advertised hS hsecret hadvert hk
  rw [← hserved, (unicastAdvertise_eq_ok hadvert).1] at hprobe
  rw [unicastLookup, if_neg hne, ← Option.isSome_iff_exists, List.findSome?_isSome_iff]
  exact ⟨k, hfinished, by rw [hprobe]; rfl⟩

/-- Relays that send a record of a keypair lead to one. -/
lemma exists_relays (hS : S.Ideal secret) (hsecret : ∀ k ∈ candidates, k ∈ secret) {k : Keys}
    (hk : k ∈ candidates) {nonce : Bytes} {now : ℕ} {nodeId : EndpointId} {event : PinEvent}
    {events : List PinEvent} (hpublish : publishPinRecord S nonce now k nodeId = .ok event)
    (hmem : event ∈ events) : ∃ id, lookupPinRecord S candidates events = some id := by
  have hread := PinEvent.read_publish hS hsecret hk hpublish
  rw [lookupPinRecord, ← Option.isSome_iff_exists, List.findSome?_isSome_iff]
  exact ⟨event, List.mem_mergeSort.2 hmem, by rw [hread]; rfl⟩

end Carriers

/-! ## The lookup of a PIN -/

section Lookup

variable {H : Sealing} {S : PinSealing Keys} {K : PinKdf Keys} {pins : Set String}
  {secret : Set Keys} {b : Board (PinLetter K pins) String} {v : View Keys}
  {relays : List String} {targetIp : Option IpAddr} {channel : SignalChannel}

/-- An enabled carrier shows a record of a keypair: a browse among any other services, the side
channel of the typed address in a probe that is over in time, or the relays among any other
events. -/
def PinRecordShown (S : PinSealing Keys) (v : View Keys) (relays : List String)
    (targetIp : Option IpAddr) (channel : SignalChannel) (candidates : List Keys) (k : Keys) :
    Prop :=
  (channel.lan = true ∧ targetIp = none ∧ ∃ events nonce nodeId addrs r info,
    v.pinBrowse = .ok events ∧ dnssdAdvertisePinRecord S nonce k nodeId addrs = .ok r ∧
    r.ResolvedAs info ∧ .serviceResolved info ∈ events) ∨
  (channel.lan = true ∧ ∃ ip nonce nodeId addrs port body, targetIp = some ip ∧
    unicastAdvertise S nonce k nodeId addrs = .ok (port, body) ∧ v.connect ip port = .ok body ∧
    k ∈ v.finished ip candidates) ∨
  (channel.nostr = true ∧ ∃ events nonce now nodeId event, v.pinEvents relays = .ok events ∧
    publishPinRecord S nonce now k nodeId = .ok event ∧ event ∈ events)

/-- The target of a record is its node id. -/
lemma endpointAddr_id (found : LanFound EndpointId) : found.endpointAddr.id = found.payload := by
  rw [LanFound.endpointAddr, dialTarget_eq]

/-- What a browse for a PIN makes of what it is shown. -/
lemma lanPinSeen_none (candidates : List Keys) : lanPinSeen (v.answer H S) none candidates =
    .of (fun found => some (LanFound.endpointAddr found))
      (v.pinBrowse.map (dnssdLookupPinRecord S candidates)) := rfl

/-- What the side channel makes of what it is served. -/
lemma lanPinSeen_some (ip : IpAddr) (candidates : List Keys) :
    lanPinSeen (v.answer H S) (some ip) candidates =
      .of (fun found => some (LanFound.endpointAddr found))
        (.ok (unicastLookup S (v.connect ip) (v.finished ip candidates) candidates)) := rfl

/-- The id of a hit on the local network was published under a keypair of the lookup.

**Proof sketch.** By whether an address was typed: the hit comes from the browse, or from the probe
of that address. -/
lemma underKeys_of_lanPinSeen (hS : S.Ideal secret) (h : PinWorld S K pins secret b)
    {candidates : List Keys} (hsecret : ∀ k ∈ candidates, k ∈ secret)
    (hshown : v.PinShown S b.posted) {target : EndpointAddr}
    (hhit : lanPinSeen (v.answer H S) targetIp candidates = .hit target) :
    UnderKeys b candidates target.id := by
  cases targetIp with
  | none =>
    rw [lanPinSeen_none] at hhit
    obtain ⟨found, hanswer, hdial⟩ := Seen.of_eq_hit.1 hhit
    obtain ⟨events, hevents, hfound⟩ := map_eq_ok_some hanswer
    obtain rfl := Option.some.inj hdial
    rw [endpointAddr_id]
    exact underKeys_of_browse hS h hsecret hshown hevents hfound
  | some ip =>
    rw [lanPinSeen_some] at hhit
    obtain ⟨found, hanswer, hdial⟩ := Seen.of_eq_hit.1 hhit
    obtain rfl := Option.some.inj hdial
    rw [endpointAddr_id]
    exact underKeys_of_unicast hS h hsecret hshown (Except.ok.inj hanswer)

/-- So was the id of a hit on the relays. -/
lemma underKeys_of_nostrPinSeen (hS : S.Ideal secret) (h : PinWorld S K pins secret b)
    {candidates : List Keys} (hsecret : ∀ k ∈ candidates, k ∈ secret)
    (hshown : v.PinShown S b.posted) {target : EndpointAddr}
    (hhit : nostrPinSeen (v.answer H S) relays candidates = .hit target) :
    UnderKeys b candidates target.id := by
  obtain ⟨id, hanswer, hdial⟩ := Seen.of_eq_hit.1 hhit
  obtain ⟨events, hevents, hfound⟩ := map_eq_ok_some hanswer
  obtain rfl := Option.some.inj hdial
  exact underKeys_of_relays hS h hsecret hshown hevents hfound

/-- A carrier that shows a record of a keypair of the lookup has a hit.

**Proof sketch.** By the carrier that shows the record. In each case the record opens under its own
keypair, so that the lookup has a hit, though it may be another one. -/
lemma isHit_of_pinRecordShown (hS : S.Ideal secret) {candidates : List Keys}
    (hsecret : ∀ k ∈ candidates, k ∈ secret) {k : Keys} (hk : k ∈ candidates)
    (hseen : PinRecordShown S v relays targetIp channel candidates k) :
    channel.lan = true ∧ (lanPinSeen (v.answer H S) targetIp candidates).IsHit ∨
      channel.nostr = true ∧ (nostrPinSeen (v.answer H S) relays candidates).IsHit := by
  rcases hseen with ⟨hon, rfl, events, nonce, nodeId, addrs, r, info, hevents, hadvert, hinfo,
    hmem⟩ | ⟨hon, ip, nonce, nodeId, addrs, port, body, rfl, hadvert, hserved, hfinished⟩ |
    ⟨hon, events, nonce, now, nodeId, event, hevents, hpublish, hmem⟩
  · left
    obtain ⟨found, hfound⟩ := exists_browse hS hsecret hk hadvert hinfo hmem
    refine ⟨hon, found.endpointAddr, ?_⟩
    rw [lanPinSeen_none]
    refine Seen.of_eq_hit.2 ⟨found, ?_, rfl⟩
    rw [hevents]
    exact congrArg Except.ok hfound
  · left
    obtain ⟨found, hfound⟩ := exists_unicast hS hsecret hk hadvert hserved hfinished
    refine ⟨hon, found.endpointAddr, ?_⟩
    rw [lanPinSeen_some]
    exact Seen.of_eq_hit.2 ⟨found, congrArg Except.ok hfound, rfl⟩
  · right
    obtain ⟨id, hid⟩ := exists_relays hS hsecret hk hpublish hmem
    refine ⟨hon, .new id, Seen.of_eq_hit.2 ⟨id, ?_, rfl⟩⟩
    show (v.pinEvents relays).map _ = _
    rw [hevents]
    exact congrArg Except.ok hid

/-- **The lookup of a PIN is authentic, and is not held up.** Whatever the carriers show a joiner,
of records of devices that show PINs and of contents that others made up who do not know the PIN,
the lookup returns only ids that were published under this very PIN, in one of the three minutes
it asks for. And it returns one if an enabled carrier shows a record of one of those minutes at
all: a browse, the side channel of the address that was typed, or the relays.

**Proof sketch.** A lookup ends with the hit of a carrier. Each carrier takes the first content that
opens under one of the keypairs, and what opens was sealed under it. In the other direction, each
carrier goes through all it is shown and passes over what does not open. -/
theorem resolveCardSetup_authentic (hS : S.Ideal secret) (hK : K.Separates pins)
    (hworld : PinWorld S K pins secret b) (hshown : v.PinShown S b.posted) {canonicalPin : String}
    (hpin : canonicalPin ∈ pins)
    (hsecret : ∀ bucket k, pinKeys K canonicalPin bucket = .ok k → k ∈ secret) (secs : UInt64) :
    (∀ target, ((resolveCardSetup relays targetIp K secs canonicalPin channel).run
        (v.answer H S)).2 = .ok target →
      ∃ l content, (l, content) ∈ b.sealed ∧ l.pin = canonicalPin ∧
        l.bucket ∈ lookupBuckets secs ∧ l.nodeId = target.id) ∧
    ∀ candidates, candidateKeys K canonicalPin secs = .ok candidates → ∀ k ∈ candidates,
      PinRecordShown S v relays targetIp channel candidates k →
        ∃ target, ((resolveCardSetup relays targetIp K secs canonicalPin channel).run
          (v.answer H S)).2 = .ok target := by
  have hend : ∀ candidates, candidateKeys K canonicalPin secs = .ok candidates →
      ((resolveCardSetup relays targetIp K secs canonicalPin channel).run (v.answer H S)).2 =
        searchEnd channel (lanPinSeen (v.answer H S) targetIp candidates)
          (nostrPinSeen (v.answer H S) relays candidates) "LAN PIN lookup failed"
          "nostr PIN lookup failed" (cardSetupMiss targetIp channel) := by
    intro candidates hcandidates
    simp only [resolveCardSetup, hcandidates, Prog.ofExcept_ok, Prog.ret_bind]
    cases targetIp with
    | none => exact run_search rfl rfl
    | some ip => exact run_search rfl rfl
  have hin : ∀ candidates, candidateKeys K canonicalPin secs = .ok candidates →
      ∀ k ∈ candidates, k ∈ secret := by
    intro candidates hcandidates k hk
    obtain ⟨bucket, -, hkeys⟩ := (mem_of_mapM_eq_ok hcandidates k).1 hk
    exact hsecret bucket k hkeys
  constructor
  · intro target htarget
    cases hcandidates : candidateKeys K canonicalPin secs with
    | error e =>
      simp only [resolveCardSetup, hcandidates] at htarget
      cases htarget
    | ok candidates =>
      rw [hend candidates hcandidates] at htarget
      have hunder : UnderKeys b candidates target.id := by
        rcases searchEnd_eq_ok htarget with ⟨-, hhit⟩ | ⟨-, hhit⟩
        · exact underKeys_of_lanPinSeen hS hworld (hin candidates hcandidates) hshown hhit
        · exact underKeys_of_nostrPinSeen hS hworld (hin candidates hcandidates) hshown hhit
      obtain ⟨l, content, hl, hkeys, hid⟩ := hunder
      obtain ⟨hlpin, hbucket⟩ := bucket_of_candidate hK hpin hcandidates hkeys
      exact ⟨l, content, hl, hlpin, hbucket, hid⟩
  · intro candidates hcandidates k hk hseen
    rw [hend candidates hcandidates]
    exact searchEnd_isOk (isHit_of_pinRecordShown hS (hin candidates hcandidates) hk hseen)

end Lookup

/-! ## A run -/

namespace RendezvousSample

open PinHost.Sample

/-- The PIN that is typed, -/
def pins : Set String := {pin | pin = "M3TDPWFA"}

/-- and its keypairs. -/
def secret : Set Bytes := {k | ∃ bucket, k = utf8 "M3TDPWFA" ++ kdfSalt bucket}

/-- The public half of a keypair: the minute of it. -/
def publicKey (k : Bytes) : PublicKey :=
  if h : ((k.drop 31).take 8 ++ List.replicate 24 0).length = 32 then ⟨_, h⟩ else .filled 0

/-- Encryption that writes the key beside the text. A text opens under the key that is written
beside it and under no other one. -/
def pinSealing : PinSealing Bytes where
  publicKey := publicKey
  encrypt _ k plain := .ok (toHex k ++ ":" ++ plain)
  decrypt k content := match splitOnce ':' content with
    | some (key, plain) => if key = toHex k then .ok plain else .error (.msg "invalid MAC")
    | none => .error (.msg "invalid payload")
  sha256 m := m.drop 36
  payloadToJson s := .ok s
  payloadFromJson s := .ok s
  recordToVec r := if r.addrs = [] then .ok (utf8 r.e) else .error (.msg "not needed")
  recordFromSlice body := match Serde.ofUtf8 body with
    | some e => .ok ⟨e, []⟩
    | none => .error (.msg "invalid record")
  parse := parse

/-- The public half of a keypair of the PIN.

**Proof sketch.** The PIN and the domain in front take 31 bytes, and what comes after them is the
minute. -/
lemma publicKey_bytes (bucket : UInt64) :
    (publicKey (utf8 "M3TDPWFA" ++ kdfSalt bucket)).bytes =
      be64 bucket ++ List.replicate 24 0 := by
  have hfront : utf8 "M3TDPWFA" ++ kdfSalt bucket =
      (utf8 "M3TDPWFA" ++ KDF_SALT_DOMAIN) ++ be64 bucket := by
    rw [kdfSalt, List.append_assoc]
  have hlen : (utf8 "M3TDPWFA" ++ KDF_SALT_DOMAIN).length = 31 := by decide
  have htail : ((utf8 "M3TDPWFA" ++ kdfSalt bucket).drop 31).take 8 = be64 bucket := by
    rw [hfront, ← hlen, List.drop_left]
    rfl
  have hwhole : (((utf8 "M3TDPWFA" ++ kdfSalt bucket).drop 31).take 8 ++
      List.replicate 24 0).length = 32 := by
    rw [htail]
    rfl
  rw [publicKey, dif_pos hwhole]
  exact congrArg (· ++ List.replicate 24 0) htail

/-- This sealing opens for the key that sealed, and for no other secret key.

**Proof sketch.** Equal labels have equal digits, so equal bytes, and the first eight of them are
the minute. Sealing writes the key before the text, and opening compares it. -/
lemma pinSealing_ideal : pinSealing.Ideal secret where
  label := by
    rintro _ ⟨m, rfl⟩ _ ⟨n, rfl⟩ heq
    have hdigits := String.ofList_injective heq
    simp only [pinSealing, PublicKey.toHex, toHex, String.toList_ofList] at hdigits
    rw [take_flatMap_hexByte _ 16, take_flatMap_hexByte _ 16, publicKey_bytes,
      publicKey_bytes] at hdigits
    have hbytes := flatMap_hexByte_inj hdigits
    have hminute : be64 m = be64 n := by
      have htake := congrArg (List.take 8) hbytes
      simpa [be64] using htake
    rw [be64_inj hminute]
  opens nonce k plain content h := by
    obtain rfl := Except.ok.inj h
    have hsplit : splitOnce ':' (toHex k ++ ":" ++ plain) = some (toHex k, plain) :=
      splitOnce_append (Device.not_mem_toHex k)
    simp [pinSealing, hsplit]
  sealed nonce k plain content h other _ hne := by
    obtain rfl := Except.ok.inj h
    have hsplit : splitOnce ':' (toHex k ++ ":" ++ plain) = some (toHex k, plain) :=
      splitOnce_append (Device.not_mem_toHex k)
    have hhex : toHex k ≠ toHex other := fun heq => hne (toHex_inj heq).symm
    simp [pinSealing, hsplit, hhex]
  payload nodeId s h := h.symm
  record r body h := by
    simp only [pinSealing] at h ⊢
    split at h
    · rename_i haddrs
      obtain rfl := Except.ok.inj h
      simp only [Serde.ofUtf8_utf8, ← haddrs]
    · cases h
  parse := parse_toString

/-- The keys of different PINs and buckets differ. -/
lemma kdf_separates : kdf.Separates pins := by
  rintro _ rfl _ rfl m n k hm hn
  exact ⟨rfl, kdf_ideal.pinKeys_inj hm hn⟩

/-- The record of the minute before the current one. -/
def pinKey : Bytes := utf8 "M3TDPWFA" ++ kdfSalt 1

/-- The key of the PIN in the bucket at hand. -/
lemma pinKey_derived : pinKeys kdf "M3TDPWFA" 1 = .ok pinKey := rfl

/-- The letter of a host that shows this PIN, -/
def pinLetter : PinLetter kdf pins := ⟨"M3TDPWFA", 1, pinKey, .filled 9, rfl, pinKey_derived⟩

/-- its content, -/
def pinContent : String := toHex pinKey ++ ":" ++ pinLetter.nodeId.toString

/-- and the board that holds it alone. -/
def pinBoard : Board (PinLetter kdf pins) String :=
  ⟨[pinContent, "forged"], [(pinLetter, pinContent)]⟩

/-- At the address of the host a stranger answers on the ports of the other minutes. On the port of
the host's own minute the real record is served, and a text that does not open on any other port. -/
def pinView : View Bytes where
  hostBrowse := .ok []
  pinBrowse := .error (.msg "no multicast route")
  connect _ port :=
    if port = sideChannelPort pinSealing pinKey then .ok (utf8 pinContent) else .ok (utf8 "forged")
  finished _ candidates := candidates.reverse
  hostingEvents _ := .ok []
  pinEvents _ := .error (.msg "no relay")

/-- The content is what the host seals. -/
lemma pin_sealed : encryptPinPayload pinSealing [] pinLetter.keys pinLetter.nodeId =
    .ok pinContent := rfl

/-- The hosts on the board are honest, and the primitives are ideal. -/
lemma pin_world : PinWorld pinSealing kdf pins secret pinBoard :=
  .publish (.forge .empty "forged" fun _ _ => ⟨_, rfl⟩) pinLetter [] pinContent pin_sealed

/-- The keys of the PIN are secret. -/
lemma pin_secret (bucket : UInt64) (k : Bytes) (h : pinKeys kdf "M3TDPWFA" bucket = .ok k) :
    k ∈ secret :=
  ⟨bucket, (Except.ok.inj h).symm⟩

/-- The content fits in a record. -/
lemma pinContent_length : (utf8 pinContent).length ≤ MAX_RECORD_BYTES := by decide +kernel

/-- A text that is short is fetched whole, and read as it was written. -/
lemma read_utf8 {text : String} (h : (utf8 text).length ≤ MAX_RECORD_BYTES) {buf : Bytes}
    (hbuf : fetch (.ok (utf8 text)) = .ok buf) {record : UnicastRecord}
    (hrecord : pinSealing.recordFromSlice buf = .ok record) : record.e = text := by
  have hwhole : (utf8 text).take (MAX_RECORD_BYTES + 1) = buf := Except.ok.inj hbuf
  rw [List.take_of_length_le (Nat.le_succ_of_le h)] at hwhole
  subst hwhole
  simp only [pinSealing, Serde.ofUtf8_utf8, Except.ok.injEq] at hrecord
  rw [← hrecord]

/-- What is shown of honest hosts was put out by them. -/
lemma pin_shown : pinView.PinShown pinSealing pinBoard.posted := by
  constructor
  · intro events hevents
    cases hevents
  · intro ip port buf record hbuf hrecord
    simp only [pinView] at hbuf
    split at hbuf
    · rw [read_utf8 pinContent_length hbuf hrecord]
      exact List.mem_cons_self
    · rw [read_utf8 (by decide) hbuf hrecord]
      exact List.mem_cons_of_mem _ List.mem_cons_self
  · intro relays events hevents
    cases hevents

/-- The host serves the content on the side channel of its key, -/
lemma pin_advert : unicastAdvertise pinSealing [] pinKey (.filled 9) [] =
    .ok (sideChannelPort pinSealing pinKey, utf8 pinContent) := by
  have hcap : ¬ MAX_RECORD_BYTES < (utf8 pinContent).length := Nat.not_lt.2 pinContent_length
  have hseal : encryptPinPayload pinSealing [] pinKey (.filled 9) = .ok pinContent := pin_sealed
  have hbody : pinSealing.recordToVec ⟨pinContent, []⟩ = .ok (utf8 pinContent) := rfl
  simp only [unicastAdvertise, hseal, hbody, bailIf, if_neg hcap, withContext_ok, bind, Except.bind,
    pure, Except.pure]

/-- and a joiner that connects there reads it. -/
lemma pin_served (ip : IpAddr) :
    pinView.connect ip (sideChannelPort pinSealing pinKey) = .ok (utf8 pinContent) := by
  simp only [pinView, if_true]

end RendezvousSample

open RendezvousSample in
/-- A joiner that typed the PIN of the last minute and the address of the host finds it on one of
the three ports, while a stranger answers on the others. -/
theorem resolveCardSetup_authentic_sample :
    ∃ target, ((resolveCardSetup [] (some (.v4 0x0a000007#32)) PinHost.Sample.kdf
      (asSecs PinHost.Sample.after.clock) "M3TDPWFA" .lanThenNostr).run
        (pinView.answer Device.sealing pinSealing)).2 = .ok target ∧ target.id = .filled 9 := by
  have h := @resolveCardSetup_authentic _ Device.sealing _ _ _ _ _ pinView []
    (some (.v4 0x0a000007#32)) .lanThenNostr pinSealing_ideal kdf_separates pin_world pin_shown
    _ rfl pin_secret (asSecs PinHost.Sample.after.clock)
  have hmem : pinKey ∈ PinHost.Sample.lookupKeys := List.mem_cons_of_mem _ List.mem_cons_self
  obtain ⟨target, htarget⟩ := h.2 _ PinHost.Sample.lookupKeys_eq pinKey hmem
    (.inr (.inl ⟨rfl, _, [], _, [], _, _, rfl, pin_advert, pin_served _, List.mem_reverse.2 hmem⟩))
  obtain ⟨l, c, hl, -, -, hid⟩ := h.1 target htarget
  obtain rfl := (Prod.mk.inj (List.mem_singleton.1 hl)).1
  exact ⟨target, htarget, hid.symm⟩

end Duocb
