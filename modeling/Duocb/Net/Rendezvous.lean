import Duocb.Lan.Unicast

set_option relaxedAutoImplicit false
set_option autoImplicit false

/-!
# Rendezvous on hostile carriers

Whoever is on the local network, answers on a port or runs a relay decides what a lookup is shown:
any services and events, old ones and copies among them, under any name, in any order, and at any
addresses. All that is assumed of the contents is that somebody has posted them. The two modules
beside this one say who can post what, for hosting records and for PIN records.

## Main definitions

* `Duocb.View`, `Duocb.View.answer` — what the carriers show, and what the lookups make of it.
* `Duocb.View.HostingShown`, `Duocb.View.PinShown` — what is shown has been posted.

## Main results

* `Duocb.searchEnd_eq_ok`, `Duocb.searchEnd_isOk` — a lookup succeeds with the hit of a carrier, and
  whenever a carrier has one.
* `Duocb.exists_posted_of_dnssdLookup` — what a browse finds was read of a content that has been
  posted.
-/

namespace Duocb

/-! ## When a lookup succeeds -/

section Ends

variable {channel : SignalChannel} {lan nostr : Seen} {lanContext nostrContext : String}
  {miss : Error} {target : EndpointAddr}

/-- The relays' answer leads to a target only if it is one. -/
lemma nostrHalf_eq_found {held : Option Error}
    (h : nostrHalf nostrContext held nostr = .found target) : nostr = .hit target := by
  cases nostr with
  | hit addr => exact congrArg Seen.hit (Half.found.inj h)
  | unsupported => cases h
  | miss => cases h
  | failed e => cases h

/-- So does the local network's. -/
lemma lanHalf_eq_found (h : lanHalf lanContext lan = .found target) : lan = .hit target := by
  cases lan with
  | hit addr => exact congrArg Seen.hit (Half.found.inj h)
  | unsupported => cases h
  | miss => cases h
  | failed e => cases h

/-- **A lookup succeeds with the hit of an enabled carrier.**

**Proof sketch.** By what the half for the local network has found, and if that is nothing by what
the relays have answered. A carrier that is not enabled has found nothing. -/
theorem searchEnd_eq_ok
    (h : searchEnd channel lan nostr lanContext nostrContext miss = .ok target) :
    channel.lan = true ∧ lan = .hit target ∨ channel.nostr = true ∧ nostr = .hit target := by
  unfold searchEnd at h
  split at h
  · rename_i addr hfound
    obtain rfl := Except.ok.inj h
    by_cases hon : channel.lan = true
    · rw [if_pos hon] at hfound
      exact .inl ⟨hon, lanHalf_eq_found hfound⟩
    · rw [if_neg hon] at hfound
      cases hfound
  · split at h
    · rename_i addr hfound
      obtain rfl := Except.ok.inj h
      by_cases hon : channel.nostr = true
      · rw [if_pos hon] at hfound
        exact .inr ⟨hon, nostrHalf_eq_found hfound⟩
      · rw [if_neg hon] at hfound
        cases hfound
    · cases h
    · cases h

/-- **A lookup succeeds whenever an enabled carrier has a hit**, whatever the other one answered. -/
theorem searchEnd_isOk
    (h : channel.lan = true ∧ lan.IsHit ∨ channel.nostr = true ∧ nostr.IsHit) :
    ∃ target, searchEnd channel lan nostr lanContext nostrContext miss = .ok target := by
  by_cases hlan : channel.lan = true ∧ lan.IsHit
  · obtain ⟨hon, addr, rfl⟩ := hlan
    exact ⟨addr, searchEnd_lan_hit miss hon addr⟩
  · obtain ⟨hon, addr, rfl⟩ := h.resolve_left hlan
    exact ⟨addr, searchEnd_nostr_hit miss (fun h hhit => hlan ⟨h, hhit⟩) hon addr⟩

/-- A hit comes from a record that can be dialed.

**Proof sketch.** By the answer of the carrier, and by whether what it has found can be dialed. -/
lemma Seen.of_eq_hit {α : Type} {dial : α → Option EndpointAddr}
    {answer : Except Error (Option α)} :
    Seen.of dial answer = .hit target ↔
      ∃ found, answer = .ok (some found) ∧ dial found = some target := by
  constructor
  · intro h
    unfold Seen.of at h
    split at h
    · rename_i found
      split at h
      · rename_i addr hdial
        exact ⟨found, rfl, hdial.trans (congrArg some (Seen.hit.inj h))⟩
      · cases h
    · cases h
    · cases h
  · rintro ⟨found, rfl, hdial⟩
    simp only [Seen.of, hdial]

end Ends

/-! ## What the carriers show -/

variable {Keys : Type}

/-- What a lookup is shown: the services of the two types, what is served at an address and which
probes are over in time, and the events that relays send. -/
structure View (Keys : Type) where
  hostBrowse : Except Error (List ServiceEvent)
  pinBrowse : Except Error (List ServiceEvent)
  connect : IpAddr → UInt16 → Except Error Bytes
  finished : IpAddr → List Keys → List Keys
  hostingEvents : List String → Except Error (List HostingEvent)
  pinEvents : List String → Except Error (List PinEvent)

/-- Advertise a host on the local network for one peer. -/
def dnssdAdvertiseHost (S : Sealing) (nonce : Bytes) (identity : Identity) (peer : PublicKey)
    (addr : TransportAddr) (addrs : List SocketAddr) : Except Error Registration := do
  let (label, content) ← dnssdAdvertiseHosting S nonce identity peer addr
  dnssdAdvertise HOSTING_SERVICE_TYPE label content addrs

/-- What a lookup makes of an instance of the hosting type. -/
def readHostInstance (S : Sealing) (identity : Identity) (host : PublicKey)
    (label content : String) : Option TransportAddr :=
  dnssdLookupHosting S identity host (label, content)

/-- Look a host up on the local network. -/
def dnssdLookupHost (S : Sealing) (identity : Identity) (host : PublicKey)
    (events : List ServiceEvent) : Option (LanFound TransportAddr) :=
  dnssdLookup HOSTING_SERVICE_TYPE (readHostInstance S identity host) events

/-- The answers to the lookups. Each lookup is the function of its carrier, applied to what the
device is shown there. -/
def View.answer (S : Sealing) (P : PinSealing Keys) (v : View Keys) : ∀ o : Lookup Keys, o.Answer
  | .dnssdLookupHosting identity host => v.hostBrowse.map (dnssdLookupHost S identity host)
  | .lookupHosting identity peer relays =>
    (v.hostingEvents relays).map (readHostingEvents S identity peer)
  | .unicastLookupPinRecord ip candidates =>
    .ok (unicastLookup P (v.connect ip) (v.finished ip candidates) candidates)
  | .dnssdLookupPinRecord candidates => v.pinBrowse.map (dnssdLookupPinRecord P candidates)
  | .lookupPinRecord candidates relays =>
    (v.pinEvents relays).map (lookupPinRecord P candidates)

/-- All contents of the services that a browse is shown have been posted. -/
def ServicesShow (posted : List String) (browse : Except Error (List ServiceEvent)) : Prop :=
  ∀ events, browse = .ok events → ∀ info, .serviceResolved info ∈ events →
    ∀ content, info.property TXT_KEY = some content → content ∈ posted

/-- All contents of hosting records that a lookup is shown have been posted. -/
structure View.HostingShown (v : View Keys) (posted : List String) : Prop where
  browse : ServicesShow posted v.hostBrowse
  relays : ∀ relays events, v.hostingEvents relays = .ok events →
    ∀ event ∈ events, event.content ∈ posted

/-- All contents of PIN records that a lookup is shown have been posted. The three places are the
services of a browse, the bytes that a probe is served, and the events of the relays. -/
structure View.PinShown (P : PinSealing Keys) (v : View Keys) (posted : List String) : Prop where
  browse : ServicesShow posted v.pinBrowse
  served : ∀ ip port buf record, fetch (v.connect ip port) = .ok buf →
    P.recordFromSlice buf = .ok record → record.e ∈ posted
  relays : ∀ relays events, v.pinEvents relays = .ok events →
    ∀ event ∈ events, event.content ∈ posted

/-- An answer that holds something was made of what the carrier showed. -/
lemma map_eq_ok_some {α β : Type} {shown : Except Error α} {f : α → Option β} {found : β}
    (h : shown.map f = .ok (some found)) : ∃ a, shown = .ok a ∧ f a = some found := by
  cases shown with
  | error e => cases h
  | ok a => exact ⟨a, rfl, Except.ok.inj h⟩

/-- What a browse finds was read by the caller, of a content that has been posted.

**Proof sketch.** The lookup returns the payload of an event that it recognises, and the events are
of services whose content has been posted. -/
lemma exists_posted_of_dnssdLookup {T : Type} {posted : List String} {events : List ServiceEvent}
    (hshown : ServicesShow posted (.ok events)) {serviceType : String}
    {decode : String → String → Option T} {found : LanFound T}
    (h : dnssdLookup serviceType decode events = some found) :
    ∃ label content, content ∈ posted ∧ decode label content = some found.payload := by
  rw [dnssdLookup_eq] at h
  obtain ⟨event, hevent, hread⟩ := List.exists_of_findSome?_eq_some h
  obtain ⟨info, label, content, rfl, hcontent, hdecode⟩ := ServiceEvent.recognize_eq_some hread
  exact ⟨label, content, hshown events rfl info hevent content hcontent, hdecode⟩

/-- A browse that is shown a service it recognizes finds one. -/
lemma exists_dnssdLookup {T : Type} {events : List ServiceEvent} {serviceType : String}
    {decode : String → String → Option T} {info : ResolvedService} {found : LanFound T}
    (hinfo : .serviceResolved info ∈ events)
    (h : info.recognize serviceType decode = some found) :
    ∃ found', dnssdLookup serviceType decode events = some found' := by
  rw [dnssdLookup_eq, ← Option.isSome_iff_exists, List.findSome?_isSome_iff]
  exact ⟨_, hinfo, by rw [ServiceEvent.recognize, h]; rfl⟩

end Duocb
