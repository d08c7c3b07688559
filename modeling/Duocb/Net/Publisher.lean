import Duocb.Net.Auth
import Duocb.Pin

set_option relaxedAutoImplicit false
set_option autoImplicit false

/-!
# The publishers of a hosting session

A hosting session runs one publisher beside its accept loop: a clipboard session keeps its hosting
record resolvable by the one peer it is for, a card-setup session shows a rotating PIN and publishes
the record under it.

## Main definitions

* `Duocb.HostingPublisher.round` — one round of the hosting publisher.
* `Duocb.PinPublisher.step` — one step of the PIN publisher.
* `Duocb.Publisher` — whichever of them a session runs.

## Main results

* `Duocb.HostingPublisher.round_events`, `Duocb.PinPublisher.step_events` — a publisher surfaces
  nothing but PINs and errors.
-/

namespace Duocb

/-! ## The hosting record -/

/-- The hosting publisher: the addresses its local advertisement carries, whether a total failure to
signal was reported, and whether it warned that the peer's card is not valid yet. -/
structure HostingPublisher where
  advertised : Option (List String)
  reported : Bool
  warnedNotYetValid : Bool
  deriving DecidableEq

/-- What the surroundings answer in one round: the clock, this endpoint's addresses, and whether the
record could be advertised and published. -/
structure HostingRound where
  now : ℕ
  addrs : List String
  lan : Bool
  nostr : Bool

namespace HostingPublisher

/-- A publisher that has published nothing yet. -/
def init : HostingPublisher := ⟨none, false, false⟩

/-- The error of a round that could not publish, said once for a run of them. -/
def announceError (published reported : Bool) : List NetEvent :=
  if !published && !reported then
    [.error ("Could not announce this device on any channel — the other device will " ++
      "not find it. Check this device's network connection.")]
  else []

/-- One round: warn once of a card that is not valid yet, withdraw the record of a card that is not
valid, else publish it wherever it can be, and report when it could be published nowhere. -/
def round (p : HostingPublisher) (identity : KeyIdentity) (peer : PublicKey)
    (channel : SignalChannel) (r : HostingRound) : HostingPublisher × List NetEvent :=
  let notYet := (identity.peer peer).filter fun card =>
    !p.warnedNotYetValid && card.isNotYetValidAt r.now
  let warned := p.warnedNotYetValid || notYet.isSome
  let warning := notYet.toList.map fun card => NetEvent.error
    (expiredCardMessage card r.now ++ " — that device cannot find this one until then")
  match (identity.peer peer).filter fun card => card.isValidAt r.now with
  | none => (⟨none, p.reported, warned⟩, warning)
  | some _ =>
    let advertised :=
      if channel.lan then
        if p.advertised = some r.addrs then p.advertised else if r.lan then some r.addrs else none
      else p.advertised
    let published := channel.lan && advertised.isSome || channel.nostr && r.nostr
    (⟨advertised, !published, warned⟩, warning ++ announceError published p.reported)

/-- All that is surfaced about a failed publication is an error. -/
lemma announceError_events {published reported : Bool} :
    ∀ e ∈ announceError published reported, ∃ message, e = .error message := by
  intro e he
  unfold announceError at he
  split at he
  · exact ⟨_, List.mem_singleton.1 he⟩
  · cases he

/-- A round surfaces nothing but errors.

**Proof sketch.** By the branches of a round: each of its lists of events is a list of errors. -/
lemma round_events {p : HostingPublisher} {identity : KeyIdentity} {peer : PublicKey}
    {channel : SignalChannel} {r : HostingRound} :
    ∀ e ∈ (p.round identity peer channel r).2, ∃ message, e = .error message := by
  intro e he
  simp only [round] at he
  split at he
  · obtain ⟨card, -, rfl⟩ := List.mem_map.1 he
    exact ⟨_, rfl⟩
  · rcases List.mem_append.1 he with he | he
    · obtain ⟨card, -, rfl⟩ := List.mem_map.1 he
      exact ⟨_, rfl⟩
    · exact announceError_events e he

end HostingPublisher

/-! ## The rotating PIN -/

/-- Where the PIN publisher is: about to mint a PIN, deriving its keys, waiting for the end of its
period, or done. -/
inductive PinPublisher where
  | minting
  | derivingKeys (pin : String)
  | waiting
  | stopped
  deriving DecidableEq

/-- What moves the PIN publisher. Each of them is one turn of the loop or one branch of its wait;
what the outside has answered comes with it. -/
inductive PinLabel where
  /-- A turn begins, with a fresh PIN and this device's address. -/
  | mint (pin : String) (hostLanIp : Option String)
  /-- The keys of the PIN are derived, if the task ran and could derive the record's, and the record
  is advertised by multicast and by unicast, and published to the relays. -/
  | derived (ran record dnssd unicast nostr : Bool)
  /-- The period is over. -/
  | rotate
  /-- The user asked for a new PIN. -/
  | refresh
  /-- The peer has paired. -/
  | paired
  /-- The session is cancelled. -/
  | cancelled
  deriving DecidableEq

/-- What a PIN publisher shares with its session: the claim's signal, the passwords it honours,
whether a refresh was asked for, and whether the session is cancelled. -/
structure PinShared where
  paired : Bool
  recentPins : RecentPins
  refresh : Bool
  cancelled : Bool
  deriving DecidableEq

namespace PinPublisher

/-- The error of a PIN that was published nowhere, or nowhere it can be found. It is found if it was
advertised on the local network or published to the relays. One that is only served can be reached
by its address. -/
def publishErrors (channel : SignalChannel) (dnssd unicast nostr : Bool) : List NetEvent :=
  let discoverable := channel.lan && dnssd || channel.nostr && nostr
  let typedIpOnly := channel.lan && unicast
  if discoverable then []
  else if typedIpOnly then
    [.error ("Could not publish the PIN for automatic discovery — the other device will have to " ++
      "enter the IP shown below")]
  else
    [.error ("Could not publish the PIN on any channel — check this device's network connection " ++
      "and press New PIN")]

/-- One step of the PIN publisher: what is left of it, what it leaves shared, and what it
surfaces. -/
def step (C : Crypto) (channel : SignalChannel) (p : PinPublisher) (sh : PinShared) :
    PinLabel → Option (PinPublisher × PinShared × List NetEvent)
  | .mint pin hostLanIp =>
    match p with
    | .minting =>
      if sh.paired then some (.stopped, sh, [.pinCleared])
      else
        -- a fresh PIN is canonical, so it can be cut into its groups
        some (.derivingKeys pin, sh, [.pinRotated ((formatPin pin).getD "") BUCKET_SECS
          (if channel.lan then hostLanIp else none)])
    | _ => none
  | .derived ran record dnssd unicast nostr =>
    match p with
    | .derivingKeys pin =>
      if ran then
        let recentPins := match C.deriveAuthKeyMaterial pin with
          | .ok password => sh.recentPins.push password
          | .error _ => sh.recentPins
        some (.waiting, { sh with recentPins := recentPins },
          if record then publishErrors channel dnssd unicast nostr else [])
      else some (.waiting, sh, [])
    | _ => none
  | .rotate => if p = .waiting then some (.minting, sh, []) else none
  | .refresh =>
    if p = .waiting ∧ sh.refresh then
      -- no retained password: a stale code can no longer authenticate
      some (.minting, { sh with recentPins := [], refresh := false }, [])
    else none
  | .paired => if p = .waiting ∧ sh.paired then some (.stopped, sh, [.pinCleared]) else none
  | .cancelled => if p = .waiting ∧ sh.cancelled then some (.stopped, sh, []) else none

/-- The PIN publisher surfaces nothing but PINs and errors, and leaves the claim's signal alone.

**Proof sketch.** By the label and the state of the publisher, branch by branch. -/
lemma step_events {C : Crypto} {channel : SignalChannel} {p p' : PinPublisher} {sh sh' : PinShared}
    {l : PinLabel} {es : List NetEvent} (h : p.step C channel sh l = some (p', sh', es)) :
    ∀ e ∈ es, (∃ pin secs ip, e = .pinRotated pin secs ip) ∨ e = .pinCleared ∨
      ∃ message, e = .error message := by
  intro e he
  cases l with
  | mint pin ip =>
    simp only [step] at h
    split at h
    · split at h
      · obtain ⟨rfl, rfl, rfl⟩ := by simpa using h
        exact Or.inr (Or.inl (List.mem_singleton.1 he))
      · obtain ⟨rfl, rfl, rfl⟩ := by simpa using h
        exact Or.inl ⟨_, _, _, List.mem_singleton.1 he⟩
    · cases h
  | derived ran record dnssd unicast nostr =>
    simp only [step] at h
    split at h
    · split_ifs at h
      · obtain ⟨rfl, rfl, rfl⟩ := by simpa using h
        simp only [publishErrors] at he
        split_ifs at he
        · cases he
        · exact Or.inr (Or.inr ⟨_, List.mem_singleton.1 he⟩)
        · exact Or.inr (Or.inr ⟨_, List.mem_singleton.1 he⟩)
      · obtain ⟨rfl, rfl, rfl⟩ := by simpa using h
        cases he
      · obtain ⟨rfl, rfl, rfl⟩ := by simpa using h
        cases he
    · cases h
  | rotate =>
    simp only [step] at h
    split_ifs at h
    obtain ⟨rfl, rfl, rfl⟩ := by simpa using h
    cases he
  | refresh =>
    simp only [step] at h
    split_ifs at h
    obtain ⟨rfl, rfl, rfl⟩ := by simpa using h
    cases he
  | paired =>
    simp only [step] at h
    split_ifs at h
    obtain ⟨rfl, rfl, rfl⟩ := by simpa using h
    exact Or.inr (Or.inl (List.mem_singleton.1 he))
  | cancelled =>
    simp only [step] at h
    split_ifs at h
    obtain ⟨rfl, rfl, rfl⟩ := by simpa using h
    cases he

end PinPublisher

/-! ## Either of them -/

/-- The publisher of a session. -/
inductive Publisher where
  | none
  | hosting (p : HostingPublisher)
  | pins (p : PinPublisher)
  deriving DecidableEq

/-- What moves a publisher. -/
inductive PublisherLabel where
  | hosting (r : HostingRound)
  | pins (l : PinLabel)

end Duocb
