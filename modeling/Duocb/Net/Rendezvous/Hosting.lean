import Duocb.Ffi
import Duocb.Library.Board
import Duocb.Net.Rendezvous

set_option relaxedAutoImplicit false
set_option autoImplicit false

/-!
# Looking a peer up among strangers

A host publishes its node id for one trusted peer, encrypted under the key that the two share. The
key is the same from both ends, so it does not say which of the two wrote a record. What does is
the role: of two devices only the one with the lower key ever hosts for the other.

Others may leave any content that does not open under the key of two honest devices, copy records
to wherever they like, and decide what a lookup is shown. They cannot make a lookup return an id
that the selected peer did not publish for this device. On the local network they cannot make it
miss a record that is shown either. On the relays they can, by sending a newer event.

## Main definitions

* `Duocb.HostingLetter` — a record that an honest host publishes.
* `Duocb.HostingWorld` — how contents come about.
* `Duocb.HostShown` — a carrier shows a record of the peer.

## Main results

* `Duocb.HostingWorld.reachable` — records are sealed letters.
* `Duocb.HostingWorld.exists_letter` — what opens for a dialer was published for it by its peer.
* `Duocb.resolveHosting_authentic` — the lookup returns an id of the peer, and returns one whenever
  a carrier shows a record of the peer.
-/

namespace Duocb

/-- The address that a host publishes. -/
def rendezvousAddr (nodeId : EndpointId) : TransportAddr := ⟨TRANSPORT_KIND, nodeId.toString⟩

/-- What a hosting record opens to under a key. It must be opened, parsed and of the version of this
release. -/
def openHosting (S : Sealing) (key : Bytes) (content : String) : Option TransportAddr :=
  match S.decrypt key content with
  | .error _ => none
  | .ok plaintext =>
    match S.recordFromJson plaintext with
    | .error _ => none
    | .ok record =>
      if record.version ≠ HOSTING_VERSION then none else some ⟨record.transport, record.address⟩

/-- A device decrypts a record with the key that it shares with the host. -/
lemma decrypt_eq_openHosting (S : Sealing) (identity : Identity) (host : PublicKey)
    (content : String) : HostingRecord.decrypt S identity host content =
      openHosting S (S.conversationKey identity.publicKey host) content := rfl

/-- A record that an honest host publishes for a peer for which it is the host. Both keys are in the
record's world, and the order of the two makes its author the host. -/
structure HostingLetter (honest keys : Set PublicKey) where
  host : Identity
  peer : PublicKey
  nodeId : EndpointId
  host_mem : host.publicKey ∈ honest
  peer_mem : peer ∈ keys
  role : sessionRole host.publicKey peer = .host

section World

variable (S : Sealing) (honest keys : Set PublicKey)

/-- How contents come about: honest hosts publish records, and anybody posts a content that does
not decrypt under the key of two honest devices. -/
inductive HostingWorld : Board (HostingLetter honest keys) String → Prop where
  | empty : HostingWorld ⟨[], []⟩
  | publish {b : Board (HostingLetter honest keys) String} (h : HostingWorld b)
      (l : HostingLetter honest keys) (nonce : Bytes) (content : String)
      (sealed : HostingRecord.encrypt S nonce l.host l.peer (rendezvousAddr l.nodeId) =
        .ok content) : HostingWorld ⟨content :: b.posted, (l, content) :: b.sealed⟩
  | forge {b : Board (HostingLetter honest keys) String} (h : HostingWorld b) (content : String)
      (blind : ∀ a ∈ honest, ∀ c ∈ honest,
        ∃ e, S.decrypt (S.conversationKey a c) content = .error e) :
      HostingWorld ⟨content :: b.posted, b.sealed⟩

/-- Hosting records as letters. The keys of two honest devices are secret. -/
def hostingPost : Post (HostingLetter honest keys) Bytes String TransportAddr where
  opens := openHosting S
  key l := S.conversationKey l.host.publicKey l.peer
  text l := rendezvousAddr l.nodeId
  secret := {k | ∃ a ∈ honest, ∃ c ∈ honest, k = S.conversationKey a c}

end World

section Authentic

variable {S : Sealing} {honest keys : Set PublicKey}
  {b : Board (HostingLetter honest keys) String}

/-- A content that does not decrypt does not open. -/
lemma openHosting_error {key : Bytes} {content : String} {e : Error}
    (h : S.decrypt key content = .error e) : openHosting S key content = none := by
  simp only [openHosting, h]

/-- **Hosting records are sealed letters**: a record opens under the key of its two ends, and under
no other one.

**Proof sketch.** By induction on the world. A record that is published opens under its own key, by
the sealing, and under no other one. A forged one opens under none. -/
theorem HostingWorld.reachable (hS : S.Ideal keys) (h : HostingWorld S honest keys b) :
    Board.Reachable (hostingPost S honest keys) b := by
  induction h with
  | empty => exact .empty
  | @publish b h l nonce content sealed ih =>
    simp only [HostingRecord.encrypt, bind_eq_ok, withContext_eq_ok] at sealed
    obtain ⟨payload, hjson, hsealed⟩ := sealed
    refine ih.letter l content ?_ ?_
    · simp only [hostingPost, openHosting, hS.opens _ _ _ _ hsealed, hS.json _ _ hjson]
      rfl
    · intro key _ hne
      obtain ⟨e, he⟩ := hS.sealed _ _ _ _ hsealed key hne
      exact openHosting_error he
  | @forge b h content blind ih =>
    refine ih.leave content ?_
    rintro key ⟨a, ha, c, hc, rfl⟩
    obtain ⟨e, he⟩ := blind a ha c hc
    exact openHosting_error he

variable {me : Identity} {peer : PublicKey}

/-- The device that dials is not the host of the two. -/
lemma ne_of_dial (h : sessionRole me.publicKey peer = .dial) : me.publicKey ≠ peer := by
  intro heq
  rw [heq, sessionRole, if_pos (List.le_refl _)] at h
  cases h

/-- **What opens for a dialer was published for it by its peer.**

**Proof sketch.** The content is a letter under the key that the two share, so its two ends are the
dialer and the peer, one way round or the other. The host of the letter took the host's role, and
of the two that is the peer's. -/
theorem HostingWorld.exists_letter (hS : S.Ideal keys) (hsub : honest ⊆ keys)
    (h : HostingWorld S honest keys b) (hme : me.publicKey ∈ honest) (hpeer : peer ∈ honest)
    (hrole : sessionRole me.publicKey peer = .dial) {content : String} (hc : content ∈ b.posted)
    {addr : TransportAddr} (hopen : HostingRecord.decrypt S me peer content = some addr) :
    ∃ l, (l, content) ∈ b.sealed ∧ l.host.publicKey = peer ∧ l.peer = me.publicKey ∧
      addr = rendezvousAddr l.nodeId := by
  rw [decrypt_eq_openHosting] at hopen
  obtain ⟨l, hl, hkey, htext⟩ :=
    (h.reachable hS).exists_sealed hc ⟨_, hme, _, hpeer, rfl⟩ hopen
  have hkey' : S.conversationKey l.host.publicKey l.peer =
      S.conversationKey me.publicKey peer := hkey
  have hhost := hS.distinct _ (hsub hme) _ (hsub hpeer) _ (hsub l.host_mem) _ l.peer_mem hkey'
  have hends := hS.distinct _ (hsub l.host_mem) _ l.peer_mem _ (hsub hme) _ (hsub hpeer)
    hkey'.symm
  have hpeer' := hS.distinct _ (hsub l.host_mem) _ l.peer_mem _ (hsub hpeer) _ (hsub hme)
    (by rw [hS.symmetric peer, ← hkey'])
  refine ⟨l, hl, ?_⟩
  rcases hhost with hmine | htheirs
  · -- a record of this device's own would be one for which it is the host
    exfalso
    rcases hpeer' with heq | heq
    · exact ne_of_dial hrole (hmine.symm.trans heq.symm)
    · have hown := l.role
      rw [hmine, ← heq, hrole] at hown
      cases hown
  · refine ⟨htheirs, ?_, htext.symm⟩
    rcases hends with heq | heq
    · exact absurd (heq.trans htheirs) (ne_of_dial hrole)
    · exact heq.symm

end Authentic

/-! ## The lookup of a peer -/

section Lookup

variable {Keys : Type} {S : Sealing} {P : PinSealing Keys} {honest keys : Set PublicKey}
  {b : Board (HostingLetter honest keys) String} {parse : String → Option EndpointId}
  {v : View Keys} {identity : KeyIdentity} {peer : PublicKey} {channel : SignalChannel}

/-- The address in a letter is that of its node id. -/
lemma endpointId_rendezvousAddr (hparse : ∀ id : EndpointId, parse id.toString = some id)
    (nodeId : EndpointId) : endpointId parse (rendezvousAddr nodeId) = some nodeId := by
  simp only [endpointId, rendezvousAddr, if_true, trim_endpointId, hparse]

/-- A record that is written in a letter of the peer for this device. -/
def FromPeer (b : Board (HostingLetter honest keys) String) (me peer : PublicKey)
    (l : HostingLetter honest keys) : Prop :=
  (∃ content, (l, content) ∈ b.sealed) ∧ l.host.publicKey = peer ∧ l.peer = me

/-- An enabled carrier shows a record that the peer publishes for this device: the local network
among any other services, or the relays as the newest event. -/
def HostShown (S : Sealing) (v : View Keys) (channel : SignalChannel) (identity : KeyIdentity)
    (l : HostingLetter honest keys) : Prop :=
  (channel.lan = true ∧ ∃ events nonce addrs r info, v.hostBrowse = .ok events ∧
    dnssdAdvertiseHost S nonce l.host l.peer (rendezvousAddr l.nodeId) addrs = .ok r ∧
    r.ResolvedAs info ∧ .serviceResolved info ∈ events) ∨
  (channel.nostr = true ∧ ∃ events nonce now event,
    v.hostingEvents identity.relays = .ok events ∧
    publishHosting S nonce now l.host l.peer (rendezvousAddr l.nodeId) = .ok event ∧
    newest events = some event)

/-- A target that a browse leads to was published by the peer for this device.

**Proof sketch.** The content of the service has been posted, and it opens under the key of the two
ends. So it is the letter of an honest host, and that host is the peer. -/
lemma exists_letter_of_lan (hS : S.Ideal keys) (hsub : honest ⊆ keys)
    (hworld : HostingWorld S honest keys b) (hshown : v.HostingShown b.posted)
    (hme : identity.identity.publicKey ∈ honest) (hpeer : peer ∈ honest)
    (hrole : sessionRole identity.identity.publicKey peer = .dial)
    {found : LanFound TransportAddr} {events : List ServiceEvent}
    (hbrowse : v.hostBrowse = .ok events)
    (hfound : dnssdLookupHost S identity.identity peer events = some found) :
    ∃ l, FromPeer b identity.identity.publicKey peer l ∧
      found.payload = rendezvousAddr l.nodeId := by
  have hevents : ServicesShow b.posted (.ok events) := by
    rw [← hbrowse]
    exact hshown.browse
  obtain ⟨label, content, hposted, hread⟩ := exists_posted_of_dnssdLookup hevents hfound
  simp only [readHostInstance, dnssdLookupHosting] at hread
  split at hread
  · obtain ⟨l, hl, hhost, hfor, haddr⟩ :=
      hworld.exists_letter hS hsub hme hpeer hrole hposted hread
    exact ⟨l, ⟨⟨content, hl⟩, hhost, hfor⟩, haddr⟩
  · cases hread

/-- A fold that keeps what it has, or takes what comes, ends with one of these. -/
lemma eq_or_mem_of_foldl {α : Type} {f : Option α → α → Option α}
    (hf : ∀ best a, f best a = best ∨ f best a = some a) {l : List α} {best : Option α} {a : α}
    (h : l.foldl f best = some a) : best = some a ∨ a ∈ l := by
  induction l generalizing best with
  | nil => exact .inl h
  | cons e l ih =>
    rcases ih h with hbest | hmem
    · rcases hf best e with hkept | htaken
      · exact .inl (hkept.symm.trans hbest)
      · obtain rfl := Option.some.inj (htaken.symm.trans hbest)
        exact .inr List.mem_cons_self
    · exact .inr (List.mem_cons_of_mem _ hmem)

/-- The newest event is one of the events. -/
lemma mem_of_newest {events : List HostingEvent} {event : HostingEvent}
    (h : newest events = some event) : event ∈ events := by
  unfold newest at h
  refine (eq_or_mem_of_foldl ?_ h).resolve_left (by simp)
  intro best e
  cases best with
  | none => exact .inr rfl
  | some b =>
    dsimp only
    split
    · exact .inl rfl
    · exact .inr rfl

/-- So was an address that the relays lead to.

**Proof sketch.** The newest event is one that the relays have sent, whose content has been posted.
The rest is as for a browse. -/
lemma exists_letter_of_relays (hS : S.Ideal keys) (hsub : honest ⊆ keys)
    (hworld : HostingWorld S honest keys b) (hshown : v.HostingShown b.posted)
    (hme : identity.identity.publicKey ∈ honest) (hpeer : peer ∈ honest)
    (hrole : sessionRole identity.identity.publicKey peer = .dial) {addr : TransportAddr}
    {events : List HostingEvent} (hevents : v.hostingEvents identity.relays = .ok events)
    (haddr : readHostingEvents S identity.identity peer events = some addr) :
    ∃ l, FromPeer b identity.identity.publicKey peer l ∧ addr = rendezvousAddr l.nodeId := by
  simp only [readHostingEvents, Option.bind_eq_some_iff] at haddr
  obtain ⟨event, hnewest, hread⟩ := haddr
  split at hread
  · obtain ⟨l, hl, hhost, hfor, haddr⟩ := hworld.exists_letter hS hsub hme hpeer hrole
      (hshown.relays _ _ hevents event (mem_of_newest hnewest)) hread
    exact ⟨l, ⟨⟨_, hl⟩, hhost, hfor⟩, haddr⟩
  · cases hread

/-- What is dialed is the node that was found. -/
lemma dialTarget_id (nodeId : EndpointId) (addrs : List SocketAddr) :
    (dialTarget nodeId addrs).id = nodeId := by
  rw [dialTarget_eq]

/-- A registration of the peer that a browse resolves is recognized by this device.

**Proof sketch.** The label of the registration is the one that this device looks for, and its
content opens to the address that was sealed. -/
lemma recognize_host (hS : S.Ideal keys) {l : HostingLetter honest keys}
    (hhost : l.host.publicKey = peer) (hfor : l.peer = identity.identity.publicKey) {nonce : Bytes}
    {addrs : List SocketAddr} {r : Registration} {info : ResolvedService}
    (hadvert : dnssdAdvertiseHost S nonce l.host l.peer (rendezvousAddr l.nodeId) addrs = .ok r)
    (hinfo : r.ResolvedAs info) :
    ∃ found, info.recognize HOSTING_SERVICE_TYPE (readHostInstance S identity.identity peer) =
      some found := by
  simp only [dnssdAdvertiseHost, dnssdAdvertiseHosting, bind_eq_ok] at hadvert
  obtain ⟨⟨label, content⟩, ⟨content', hseal, hpair⟩, hregister⟩ := hadvert
  obtain ⟨rfl, rfl⟩ := Prod.mk.inj (Except.ok.inj hpair)
  have hcase : toAsciiLowercase (lanInstance S l.host.publicKey l.peer ++
      ("." ++ HOSTING_SERVICE_TYPE)) =
      lanInstance S l.host.publicKey l.peer ++ ("." ++ HOSTING_SERVICE_TYPE) :=
    toAsciiLowercase_label _ 32 (by decide)
  have hread : readHostInstance S identity.identity peer
      (lanInstance S l.host.publicKey l.peer) content' = some (rendezvousAddr l.nodeId) := by
    rw [hfor] at hseal
    simp only [readHostInstance, dnssdLookupHosting, hhost, hfor, if_true]
    rw [← hhost]
    exact HostingRecord.decrypt_encrypt hS hseal
  exact ⟨_, (hinfo.recognize hregister hcase hread).2⟩

/-- An event of the peer that is the newest one is read by this device. -/
lemma readHostingEvents_publish (hS : S.Ideal keys) {l : HostingLetter honest keys}
    (hhost : l.host.publicKey = peer) (hfor : l.peer = identity.identity.publicKey) {nonce : Bytes}
    {now : ℕ} {events : List HostingEvent} {event : HostingEvent}
    (hpublish : publishHosting S nonce now l.host l.peer (rendezvousAddr l.nodeId) = .ok event)
    (hnewest : newest events = some event) :
    readHostingEvents S identity.identity peer events = some (rendezvousAddr l.nodeId) := by
  simp only [publishHosting, bind_eq_ok] at hpublish
  obtain ⟨content, hseal, hevent⟩ := hpublish
  obtain rfl := Except.ok.inj hevent
  rw [hfor] at hseal
  simp only [readHostingEvents, hnewest, Option.bind_some, if_true]
  rw [← hhost]
  exact HostingRecord.decrypt_encrypt hS hseal

/-- **The lookup of a peer is authentic, and is not held up on the local network.** Whatever the
carriers show a dialer, of records of honest hosts and of contents that others made up, the lookup
of its peer returns only ids that this very peer published for this very device. And it returns
one if the local network shows a record of the peer at all, among any other services, or if such a
record is the newest event on the relays.

**Proof sketch.** A lookup ends with the hit of a carrier. Behind a hit is a content that opened
under the key of the two devices, and only records of the peer do. In the other direction, a browse
passes over everything it does not recognize; what it takes instead of the record it was shown is
also a record of the peer, so its address can be dialed. -/
theorem resolveHosting_authentic (hS : S.Ideal keys) (hsub : honest ⊆ keys)
    (hparse : ∀ id : EndpointId, parse id.toString = some id)
    (hworld : HostingWorld S honest keys b) (hshown : v.HostingShown b.posted)
    (hme : identity.identity.publicKey ∈ honest) (hpeer : peer ∈ honest)
    (hrole : sessionRole identity.identity.publicKey peer = .dial) :
    (∀ target, ((resolveHosting parse identity peer channel).run (v.answer S P)).2 = .ok target →
      ∃ l, FromPeer b identity.identity.publicKey peer l ∧ target.id = l.nodeId) ∧
    ∀ l, FromPeer b identity.identity.publicKey peer l → HostShown S v channel identity l →
      ∃ target, ((resolveHosting parse identity peer channel).run (v.answer S P)).2 =
        .ok target := by
  have hend : ((resolveHosting parse identity peer channel).run (v.answer S P)).2 =
      searchEnd channel (lanHostingSeen (v.answer S P) parse identity peer)
        (nostrHostingSeen (v.answer S P) parse identity peer) "LAN hosting lookup failed"
        "nostr hosting lookup failed" (hostingMiss channel) := run_search rfl rfl
  rw [hend]
  constructor
  · intro target htarget
    rcases searchEnd_eq_ok htarget with ⟨-, hhit⟩ | ⟨-, hhit⟩
    · obtain ⟨found, hanswer, hdial⟩ := Seen.of_eq_hit.1 hhit
      obtain ⟨events, hbrowse, hfound⟩ := map_eq_ok_some hanswer
      obtain ⟨l, hl, hpayload⟩ :=
        exists_letter_of_lan hS hsub hworld hshown hme hpeer hrole hbrowse hfound
      rw [LanFound.hostingAddr, hpayload, endpointId_rendezvousAddr hparse] at hdial
      obtain rfl := Option.some.inj hdial
      exact ⟨l, hl, dialTarget_id l.nodeId found.addrs⟩
    · obtain ⟨addr, hanswer, hdial⟩ := Seen.of_eq_hit.1 hhit
      obtain ⟨events, hevents, haddr⟩ := map_eq_ok_some hanswer
      obtain ⟨l, hl, rfl⟩ :=
        exists_letter_of_relays hS hsub hworld hshown hme hpeer hrole hevents haddr
      rw [endpointId_rendezvousAddr hparse] at hdial
      obtain rfl := Option.some.inj hdial
      exact ⟨l, hl, rfl⟩
  · rintro l ⟨-, hhost, hfor⟩ hseen
    refine searchEnd_isOk ?_
    rcases hseen with ⟨hon, events, nonce, addrs, r, info, hbrowse, hadvert, hinfo, hmem⟩ |
      ⟨hon, events, nonce, now, event, hevents, hpublish, hnewest⟩
    · left
      obtain ⟨found, hrecognize⟩ := recognize_host hS hhost hfor hadvert hinfo
      obtain ⟨found', hfound⟩ := exists_dnssdLookup hmem hrecognize
      obtain ⟨l', -, hpayload⟩ :=
        exists_letter_of_lan hS hsub hworld hshown hme hpeer hrole hbrowse hfound
      refine ⟨hon, dialTarget l'.nodeId found'.addrs, Seen.of_eq_hit.2 ⟨found', ?_, ?_⟩⟩
      · show v.hostBrowse.map _ = _
        rw [hbrowse]
        exact congrArg Except.ok hfound
      · rw [LanFound.hostingAddr, hpayload, endpointId_rendezvousAddr hparse]
        rfl
    · right
      refine ⟨hon, .new l.nodeId, Seen.of_eq_hit.2 ⟨rendezvousAddr l.nodeId, ?_, ?_⟩⟩
      · show (v.hostingEvents identity.relays).map _ = _
        rw [hevents]
        exact congrArg Except.ok (readHostingEvents_publish hS hhost hfor hpublish hnewest)
      · rw [endpointId_rendezvousAddr hparse]
        rfl

end Lookup

/-! ## A run -/

namespace RendezvousSample

open Device

/-- The honest devices, -/
def honest : Set PublicKey := {k | k ∈ [key 1, key 2]}

/-- and all keys in use. -/
def inUse : Set PublicKey := {k | k ∈ [key 1, key 2, key 3]}

/-- The first two keys are those of honest devices. -/
lemma mem_honest (i : UInt8) (h : i = 1 ∨ i = 2) : key i ∈ honest := by
  rcases h with rfl | rfl
  · exact List.mem_cons_self
  · exact List.mem_cons_of_mem _ List.mem_cons_self

/-- The keys of honest devices are in use. -/
lemma honest_subset : honest ⊆ inUse := by
  intro k hk
  exact List.mem_append_left [key 3] hk

/-- In particular the dialer's. -/
lemma mem_inUse : key 2 ∈ inUse := honest_subset (mem_honest 2 (.inr rfl))

/-- The first key hosts for the second one. -/
lemma role_host : sessionRole (key 1) (key 2) = .host := by decide

/-- The device with the lower key publishes its node id for the other one. -/
def letter : HostingLetter honest inUse :=
  ⟨⟨key 1⟩, key 2, .filled 9, mem_honest 1 (.inl rfl), mem_inUse, role_host⟩

/-- The content of its record. -/
def content : String :=
  toHex (key 1).bytes ++ toHex (key 2).bytes ++ ":" ++ ("iroh" ++ ":" ++ letter.nodeId.toString)

/-- What is on the local network: a record of somebody else, and the one of the host, in letters of
another case. -/
def registration : Registration :=
  ⟨lanInstance sealing (key 1) (key 2) ++ ("." ++ HOSTING_SERVICE_TYPE), advertProps content none,
    ⟨4433, none, [.v4 0x0a000007#32]⟩⟩

/-- The record of somebody else, which no key opens, -/
def forged : ResolvedService where
  fullname := registration.fullname
  property _ := some "forged"
  addresses := []
  port := 1

/-- and the host's record. -/
def shown : ResolvedService where
  fullname := registration.fullname.toUpper
  property key := registration.props.lookup key
  addresses := [.v4 0x0a000007#32]
  port := 4433

/-- No PIN is looked up in this run. The PIN lookups have no keys to look for, so that none of these
is ever called. -/
def noPins : PinSealing Empty where
  publicKey k := nomatch k
  encrypt _ k _ := nomatch k
  decrypt k _ := nomatch k
  sha256 m := m
  payloadToJson s := .ok s
  payloadFromJson s := .ok s
  recordToVec _ := .ok []
  recordFromSlice _ := .error (.msg "no record")
  parse _ := none

/-- What the dialer sees: both records on the local network, and none on the relays. The first
service is one that another device has made up. -/
def view : View Empty where
  hostBrowse := .ok [.serviceResolved forged, .other, .serviceResolved shown]
  pinBrowse := .ok []
  connect _ _ := .error (.msg "connection refused")
  finished _ candidates := candidates
  hostingEvents _ := .error (.msg "no relay")
  pinEvents _ := .error (.msg "no relay")

/-- The dialer. -/
def dialer : KeyIdentity := ⟨⟨key 2⟩, card 2, [card 1], []⟩

/-- Reads a node id in hexadecimal. -/
def parse (s : String) : Option EndpointId :=
  (hexDecode s.toList).bind fun bs => if h : bs.length = 32 then some ⟨bs, h⟩ else none

/-- A node id is read as it is written. -/
lemma parse_toString (id : EndpointId) : parse id.toString = some id := by
  simp only [parse, EndpointId.toString, toHex, String.toList_ofList, hexDecode_flatMap,
    Option.bind_some, dif_pos id.length_eq]

/-- The only letter that an honest host has put out. -/
def board : Board (HostingLetter honest inUse) String :=
  ⟨[content, "forged"], [(letter, content)]⟩

/-- Its content is what the host encrypts. -/
lemma encrypt_letter : HostingRecord.encrypt sealing [] letter.host letter.peer
    (rendezvousAddr letter.nodeId) = .ok content := by
  decide +kernel

/-- The record of somebody else opens for no pair of keys. -/
lemma blind (a c : PublicKey) :
    ∃ e, sealing.decrypt (sealing.conversationKey a c) "forged" = .error e :=
  ⟨_, rfl⟩

/-- The hosts on the board are honest, and the primitives are ideal. -/
lemma world : HostingWorld sealing honest inUse board :=
  .publish (.forge .empty "forged" fun a _ c _ => blind a c) letter [] content encrypt_letter

/-- What is shown of honest hosts was put out by them. -/
lemma view_shown : view.HostingShown board.posted := by
  constructor
  · rintro events hevents info hinfo c hc
    obtain rfl := Except.ok.inj hevents
    simp only [List.mem_cons, ServiceEvent.serviceResolved.injEq, reduceCtorEq, false_or,
      List.not_mem_nil, or_false] at hinfo
    rcases hinfo with rfl | rfl
    · obtain rfl := Option.some.inj hc
      exact List.mem_cons_of_mem _ List.mem_cons_self
    · obtain rfl := Option.some.inj (hc.symm.trans (lookup_advertProps content none))
      exact List.mem_cons_self
  · intro relays events hevents
    cases hevents

/-- The host's registration is what it advertises. -/
lemma advert : dnssdAdvertiseHost sealing [] letter.host letter.peer
    (rendezvousAddr letter.nodeId) [.v4 0x0a000007#32 4433] = .ok registration := by
  have hadvertise : advertise [.v4 0x0a000007#32 4433] =
      .ok ⟨4433, none, [.v4 0x0a000007#32]⟩ := by
    simp only [advertise, splitPorts, sortUnstable, List.map_cons, List.map_nil,
      List.mergeSort_singleton]
    rfl
  simp only [dnssdAdvertiseHost, dnssdAdvertiseHosting, encrypt_letter, dnssdAdvertise,
    hadvertise]
  rfl

/-- It is resolved as the dialer sees it. -/
lemma shown_resolved : registration.ResolvedAs shown where
  fullname := by decide +kernel
  property _ := rfl
  addresses _ := Iff.rfl
  port := rfl

end RendezvousSample

open RendezvousSample in
/-- A dialer that sees a forged record under the label of its host, and the host's record behind
it, finds the host. -/
theorem resolveHosting_authentic_sample :
    ∃ target, ((resolveHosting parse dialer (Device.key 1) .lanThenNostr).run
      (view.answer Device.sealing noPins)).2 = .ok target ∧ target.id = .filled 9 := by
  have h := @resolveHosting_authentic _ _ noPins _ _ _ parse view dialer (Device.key 1)
    .lanThenNostr Device.sealing_ideal honest_subset parse_toString world view_shown
    (mem_honest 2 (.inr rfl)) (mem_honest 1 (.inl rfl)) (by decide)
  obtain ⟨target, htarget⟩ := h.2 letter ⟨⟨content, List.mem_cons_self⟩, rfl, rfl⟩
    (.inl ⟨rfl, _, [], _, registration, shown, rfl, advert, shown_resolved,
      List.mem_cons_of_mem _ (List.mem_cons_of_mem _ List.mem_cons_self)⟩)
  obtain ⟨l, ⟨⟨c, hl⟩, -⟩, hid⟩ := h.1 target htarget
  obtain rfl := (Prod.mk.inj (List.mem_singleton.1 hl)).1
  exact ⟨target, htarget, hid⟩

end Duocb
