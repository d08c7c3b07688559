import Mathlib.Data.Finset.Lattice.Lemmas
import Mathlib.Data.Finset.Dedup
import Duocb.Hosting
import Duocb.Lan
import Duocb.Library.Prog
import Duocb.Net.Publisher.Window

set_option relaxedAutoImplicit false
set_option autoImplicit false

/-!
# Looking a host up

A dialer finds its host by a record on the local network or on the relays: the hosting record of a
trusted peer, or the record of a card-setup PIN. Both lookups ask the local network first and the
relays after it, hold the first error, and let a channel that looked and found nothing clear it.

They visit the carriers in order, and only the relays clear an error. So an error of the relays is
reported although the local network looked and found nothing, and an error of the local network is
reported although the relays hold a record that this build cannot dial.

## Main definitions

* `Duocb.LanFound`, `Duocb.EndpointAddr`, `Duocb.dialTarget` — what is found, and what is dialed.
* `Duocb.Seen`, `Duocb.search` — the answer of a carrier, and a lookup that asks two of them.
* `Duocb.resolveHosting`, `Duocb.resolveCardSetup` — the two lookups.
* `Duocb.Disciplined` — what a lookup has to return.
* `Duocb.Displaced` — a clean miss of one carrier and an error of the other.

## Main results

* `Duocb.search_disciplined_iff` — a lookup returns what it has to, unless a clean miss is
  displaced.
* `Duocb.resolve_disciplined_iff` — both lookups do, and ask enabled carriers only.
* `Duocb.clean_miss_displaced` — an error does displace a clean miss in both of them.
-/

namespace Duocb

/-! ## What is found -/

/-- The transport that this build speaks. -/
def TRANSPORT_KIND : String := "iroh"

/-- Where to dial: a transport id, and the direct addresses that are known of it. -/
structure EndpointAddr where
  id : EndpointId
  addrs : Finset SocketAddr
  deriving DecidableEq

/-- An id of which no address is known. -/
def EndpointAddr.new (id : EndpointId) : EndpointAddr := ⟨id, ∅⟩

/-- Add a direct address. -/
def EndpointAddr.withIpAddr (addr : EndpointAddr) (a : SocketAddr) : EndpointAddr :=
  { addr with addrs := insert a addr.addrs }

/-- Attach every resolved direct address to a node id. -/
def dialTarget (nodeId : EndpointId) (addrs : List SocketAddr) : EndpointAddr :=
  addrs.foldl EndpointAddr.withIpAddr (.new nodeId)

/-- The target is the node at all of the addresses.

**Proof sketch.** By induction on the addresses, each of which is added to those that the target
has. -/
lemma dialTarget_eq (nodeId : EndpointId) (addrs : List SocketAddr) :
    dialTarget nodeId addrs = ⟨nodeId, addrs.toFinset⟩ := by
  have hfold : ∀ (as : List SocketAddr) (start : EndpointAddr),
      as.foldl EndpointAddr.withIpAddr start = ⟨start.id, as.toFinset ∪ start.addrs⟩ := by
    intro as
    induction as with
    | nil => simp
    | cons a as ih =>
      intro start
      rw [List.foldl_cons, ih]
      simp only [EndpointAddr.withIpAddr, List.toFinset_cons, Finset.union_insert,
        Finset.insert_union]
  rw [dialTarget, hfold]
  simp only [EndpointAddr.new, Finset.union_empty]

/-- A hit on the local network: the payload of the record, and the direct addresses. -/
structure LanFound (P : Type) where
  payload : P
  addrs : List SocketAddr

/-- The node id in a hosting record, or nothing if another transport minted the record or it does
not parse. Parsing an id is the transport's. -/
def endpointId (parse : String → Option EndpointId) (addr : TransportAddr) : Option EndpointId :=
  if addr.kind = TRANSPORT_KIND then parse (trim addr.address) else none

/-- The dial target of a PIN record. -/
def LanFound.endpointAddr (found : LanFound EndpointId) : EndpointAddr :=
  dialTarget found.payload found.addrs

/-- The dial target of a hosting record, if this build speaks its transport. -/
def LanFound.hostingAddr (parse : String → Option EndpointId) (found : LanFound TransportAddr) :
    Option EndpointAddr :=
  (endpointId parse found.payload).map fun id => dialTarget id found.addrs

/-! ## Asking two carriers -/

/-- What the answer of a carrier is to a lookup: a hit, a record that this build cannot dial, no
record, or an error. -/
inductive Seen where
  | hit (addr : EndpointAddr)
  | unsupported
  | miss
  | failed (e : Error)
  deriving DecidableEq

/-- The answer of a carrier, given what becomes of a record. A record of a form that this release
cannot dial is told apart from a miss. -/
def Seen.of {α : Type} (target : α → Option EndpointAddr) : Except Error (Option α) → Seen
  | .ok (some found) =>
    match target found with
    | some addr => hit addr
    | none => unsupported
  | .ok none => miss
  | .error e => failed e

/-- Where a lookup is: it has its target, or goes on with the error that it holds. -/
inductive Half where
  | found (addr : EndpointAddr)
  | going (firstError : Option Error)

/-- What the local network's answer leads to. -/
def lanHalf (context : String) : Seen → Half
  | .hit addr => .found addr
  | .unsupported | .miss => .going none
  | .failed e => .going (some (e.context context))

/-- What the relays' answer leads to. Only a lookup that found no record clears a held error. -/
def nostrHalf (context : String) (firstError : Option Error) : Seen → Half
  | .hit addr => .found addr
  | .unsupported => .going firstError
  | .miss => .going none
  | .failed e => .going (some (firstError.getD (e.context context)))

section Search

variable {Op : Type} {Ans : Op → Type}

/-- The first half of a lookup, if the local network is enabled. -/
def askLan (channel : SignalChannel) (lan : Prog Op Ans Error Seen) (context : String) :
    Prog Op Ans Error Half :=
  if channel.lan then lan >>= fun seen => .ret (lanHalf context seen) else .ret (.going none)

/-- The second half, if the relays are enabled. -/
def askNostr (channel : SignalChannel) (nostr : Prog Op Ans Error Seen) (context : String)
    (firstError : Option Error) : Prog Op Ans Error Half :=
  if channel.nostr then nostr >>= fun seen => .ret (nostrHalf context firstError seen)
  else .ret (.going firstError)

/-- A lookup: the local network, then the relays. An error is held while there is a carrier left to
ask, and a lookup that holds none has found nothing. -/
def search (channel : SignalChannel) (lan nostr : Prog Op Ans Error Seen)
    (lanContext nostrContext : String) (miss : Error) : Prog Op Ans Error EndpointAddr :=
  askLan channel lan lanContext >>= fun
    | .found addr => .ret addr
    | .going firstError => askNostr channel nostr nostrContext firstError >>= fun
      | .found addr => .ret addr
      | .going (some error) => .fail error
      | .going none => .fail miss

end Search

/-! ## The two lookups -/

variable {Keys : Type}

/-- What the carriers are asked for. Each is one call of the source, with the arguments that it
passes. -/
inductive Lookup (Keys : Type) where
  | dnssdLookupHosting (identity : Identity) (host : PublicKey)
  | lookupHosting (identity : Identity) (peer : PublicKey) (relays : List String)
  | unicastLookupPinRecord (ip : IpAddr) (candidates : List Keys)
  | dnssdLookupPinRecord (candidates : List Keys)
  | lookupPinRecord (candidates : List Keys) (relays : List String)

namespace Lookup

/-- What they answer with. A lookup can fail, find nothing, or find a record. -/
def Answer : Lookup Keys → Type
  | dnssdLookupHosting _ _ => Except Error (Option (LanFound TransportAddr))
  | lookupHosting _ _ _ => Except Error (Option TransportAddr)
  | unicastLookupPinRecord _ _ | dnssdLookupPinRecord _ =>
    Except Error (Option (LanFound EndpointId))
  | lookupPinRecord _ _ => Except Error (Option EndpointId)

/-- Whether a channel includes the carrier that is asked. -/
def enabled (channel : SignalChannel) : Lookup Keys → Bool
  | dnssdLookupHosting _ _ | unicastLookupPinRecord _ _ | dnssdLookupPinRecord _ => channel.lan
  | lookupHosting _ _ _ | lookupPinRecord _ _ => channel.nostr

end Lookup

/-- The miss of a hosting lookup. It depends on the channel: with the relays enabled the two devices
need not be on one network. -/
def hostingMiss : SignalChannel → Error
  | .lanOnly =>
    .msg ("The selected peer is not hosting on this network — select this device and press " ++
      "Connect there, and check both devices are on the same network")
  | .nostrOnly | .lanThenNostr =>
    .msg ("The selected peer is not hosting a connection — select this device and press Connect " ++
      "on it")

/-- The miss of a card-setup lookup. It depends on the channel, and on the local network also on
whether an address was typed. -/
def cardSetupMiss (targetIp : Option IpAddr) : SignalChannel → Error
  | .lanOnly =>
    if targetIp.isSome then
      .msg ("no device answered for that PIN at that IP — check the address shown on the other " ++
        "device and that the code (it refreshes every 60s) matches")
    else
      .msg ("no device found for that PIN on this network — both devices must be on the same " ++
        "network, and the code refreshes every 60s")
  | .nostrOnly =>
    .msg ("no device found for that PIN on the relays — check the current code on the other " ++
      "device (it refreshes every 60s)")
  | .lanThenNostr =>
    .msg ("no device found for that PIN, on this network or through the relays — check the " ++
      "current code on the other device (it refreshes every 60s)")

section Resolve

variable (parse : String → Option EndpointId) (identity : KeyIdentity) (peer : PublicKey)
  (relays : List String) (targetIp : Option IpAddr) (candidates : List Keys)

/-- What the local network holds of a peer that hosts. -/
def lanHosting : Prog (Lookup Keys) Lookup.Answer Error Seen :=
  .call (.dnssdLookupHosting identity.identity peer) fun answer =>
    .ret (.of (LanFound.hostingAddr parse) answer)

/-- What the relays hold of a peer that hosts. -/
def nostrHosting : Prog (Lookup Keys) Lookup.Answer Error Seen :=
  .call (.lookupHosting identity.identity peer identity.relays) fun answer =>
    .ret (.of (fun addr => (endpointId parse addr).map EndpointAddr.new) answer)

/-- What the local network holds under the keys of a PIN. A typed address selects the unicast side
channel. -/
def lanPin : Prog (Lookup Keys) Lookup.Answer Error Seen :=
  match targetIp with
  | some ip => .call (.unicastLookupPinRecord ip candidates) fun answer =>
    .ret (.of (fun found => some (LanFound.endpointAddr found)) answer)
  | none => .call (.dnssdLookupPinRecord candidates) fun answer =>
    .ret (.of (fun found => some (LanFound.endpointAddr found)) answer)

/-- What the relays hold under the keys of a PIN. -/
def nostrPin : Prog (Lookup Keys) Lookup.Answer Error Seen :=
  .call (.lookupPinRecord candidates relays) fun answer =>
    .ret (.of (fun id => some (EndpointAddr.new id)) answer)

/-- Look a trusted peer up that hosts. -/
def resolveHosting (channel : SignalChannel) :
    Prog (Lookup Keys) Lookup.Answer Error EndpointAddr :=
  search channel (lanHosting parse identity peer) (nostrHosting parse identity peer)
    "LAN hosting lookup failed" "nostr hosting lookup failed" (hostingMiss channel)

/-- Look the host of a card setup up, under the keys that its PIN has around a time. -/
def resolveCardSetup (K : PinKdf Keys) (secs : UInt64) (canonicalPin : String)
    (channel : SignalChannel) : Prog (Lookup Keys) Lookup.Answer Error EndpointAddr := do
  let candidates ← .ofExcept (candidateKeys K canonicalPin secs)
  search channel (lanPin targetIp candidates) (nostrPin relays candidates)
    "LAN PIN lookup failed" "nostr PIN lookup failed" (cardSetupMiss targetIp channel)

end Resolve

/-! ## The discipline -/

namespace Seen

/-- The carrier has a record that can be dialed. -/
def IsHit (s : Seen) : Prop := ∃ addr, s = .hit addr

/-- The carrier looked, and has no record that can be dialed. -/
def Clean (s : Seen) : Prop := s = .miss ∨ s = .unsupported

/-- Every carrier has a record, looked and has none, or failed. -/
lemma cases_of (s : Seen) : (∃ addr, s = .hit addr) ∨ s.Clean ∨ ∃ e, s = .failed e := by
  cases s with
  | hit addr => exact .inl ⟨addr, rfl⟩
  | unsupported => exact .inr (.inl (.inr rfl))
  | miss => exact .inr (.inl (.inl rfl))
  | failed e => exact .inr (.inr ⟨e, rfl⟩)

end Seen

/-- What a lookup has to return, given what each carrier would answer: the hit of the local network,
else the hit of the relays, and if there is none, that nothing was found. Only if no enabled carrier
managed to look, the error of one of them. -/
structure Disciplined (channel : SignalChannel) (lan nostr : Seen)
    (lanContext nostrContext : String)
    (miss : Error) (result : Except Error EndpointAddr) : Prop where
  lanHit : ∀ addr, channel.lan = true → lan = .hit addr → result = .ok addr
  nostrHit : ∀ addr, (channel.lan = true → ¬ lan.IsHit) → channel.nostr = true → nostr = .hit addr →
    result = .ok addr
  clean : (channel.lan = true → ¬ lan.IsHit) → (channel.nostr = true → ¬ nostr.IsHit) →
    (channel.lan = true ∧ lan.Clean ∨ channel.nostr = true ∧ nostr.Clean) → result = .error miss
  failed : (channel.lan = true → ¬ lan.IsHit) → (channel.nostr = true → ¬ nostr.IsHit) →
    ¬ (channel.lan = true ∧ lan.Clean ∨ channel.nostr = true ∧ nostr.Clean) →
    (∃ e, channel.lan = true ∧ lan = .failed e ∧ result = .error (e.context lanContext)) ∨
    ∃ e, channel.nostr = true ∧ nostr = .failed e ∧ result = .error (e.context nostrContext)

/-- One carrier looked and found nothing, and the error of the other one is kept: an error of the
relays, or one of the local network while the relays hold a record that this build cannot dial. -/
def Displaced (channel : SignalChannel) (lan nostr : Seen) : Prop :=
  channel = .lanThenNostr ∧
    (lan.Clean ∧ (∃ e, nostr = .failed e) ∨ (∃ e, lan = .failed e) ∧ nostr = .unsupported)

/-- How a lookup ends, given what each carrier would answer. The local network is asked first. An
error is kept while the next carrier is asked, and is returned if that one finds nothing. -/
def searchEnd (channel : SignalChannel) (lan nostr : Seen) (lanContext nostrContext : String)
    (miss : Error) : Except Error EndpointAddr :=
  match if channel.lan then lanHalf lanContext lan else .going none with
  | .found addr => .ok addr
  | .going firstError =>
    match if channel.nostr then nostrHalf nostrContext firstError nostr else .going firstError with
    | .found addr => .ok addr
    | .going (some error) => .error error
    | .going none => .error miss

section Search

variable {Op : Type} {Ans : Op → Type} {env : ∀ o, Ans o} {channel : SignalChannel}
  {lan nostr : Prog Op Ans Error Seen} {lanContext nostrContext : String} {miss : Error}

/-- A lookup ends as the answers of the carriers demand.

**Proof sketch.** The two carriers are run one after the other. Each answer is put through its half,
and the end of the lookup is the function of the two halves. -/
lemma run_search {lanOps nostrOps : List Op} {lanSeen nostrSeen : Seen}
    (hlan : lan.run env = (lanOps, .ok lanSeen))
    (hnostr : nostr.run env = (nostrOps, .ok nostrSeen)) :
    ((search channel lan nostr lanContext nostrContext miss).run env).2 =
      searchEnd channel lanSeen nostrSeen lanContext nostrContext miss := by
  obtain ⟨ops, hfirst⟩ : ∃ ops, (askLan channel lan lanContext).run env =
      (ops, .ok (if channel.lan then lanHalf lanContext lanSeen else .going none)) := by
    unfold askLan
    split
    · exact ⟨_, Prog.run_bind_ok env hlan⟩
    · exact ⟨_, rfl⟩
  have hsecond : ∀ held, ∃ ops, (askNostr channel nostr nostrContext held).run env = (ops, .ok
      (if channel.nostr then nostrHalf nostrContext held nostrSeen else .going held)) := by
    intro held
    unfold askNostr
    split
    · exact ⟨_, Prog.run_bind_ok env hnostr⟩
    · exact ⟨_, rfl⟩
  unfold search searchEnd
  rw [Prog.run_bind_ok env hfirst]
  cases (if channel.lan then lanHalf lanContext lanSeen else .going none : Half) with
  | found addr => rfl
  | going held =>
    obtain ⟨ops', hsecond⟩ := hsecond held
    simp only [Prog.run_bind_ok env hsecond]
    cases (if channel.nostr then nostrHalf nostrContext held nostrSeen else .going held : Half) with
    | found addr => rfl
    | going held => cases held <;> rfl

/-- A lookup asks enabled carriers only.

**Proof sketch.** A half of the lookup runs its carrier only if that is enabled. -/
lemma uses_search {P : Op → Prop} (hlan : channel.lan = true → lan.Uses P)
    (hnostr : channel.nostr = true → nostr.Uses P) :
    (search channel lan nostr lanContext nostrContext miss).Uses P := by
  have hfirst : (askLan channel lan lanContext).Uses P := by
    unfold askLan
    split
    · rename_i h
      exact (hlan h).bind fun _ => .ret _
    · exact .ret _
  have hsecond : ∀ held, (askNostr channel nostr nostrContext held).Uses P := by
    intro held
    unfold askNostr
    split
    · rename_i h
      exact (hnostr h).bind fun _ => .ret _
    · exact .ret _
  refine hfirst.bind fun first => ?_
  cases first with
  | found addr => exact .ret addr
  | going held =>
    refine (hsecond held).bind fun second => ?_
    cases second with
    | found addr => exact .ret addr
    | going held =>
      cases held with
      | none => exact .fail _
      | some error => exact .fail _

end Search

section Ends

variable {channel : SignalChannel} {lan nostr : Seen} {lanContext nostrContext text : String}

/-- An error of a carrier is not the error of a miss. -/
lemma context_ne_msg {context text : String} (h : context ≠ text) (e : Error) :
    e.context context ≠ .msg text := by
  intro heq
  have hchain := congrArg Error.chain heq
  exact h (List.cons.inj hchain).1

/-- A carrier that looked, or failed, has no hit. -/
lemma Seen.Clean.not_hit {s : Seen} (h : s.Clean) : ¬ s.IsHit := by
  rintro ⟨addr, rfl⟩
  rcases h with h | h <;> cases h

/-- A failed lookup is no hit, -/
lemma Seen.failed_not_hit (e : Error) : ¬ (Seen.failed e).IsHit := by
  rintro ⟨addr, h⟩
  cases h

/-- and no clean miss either. -/
lemma Seen.failed_not_clean (e : Error) : ¬ (Seen.failed e).Clean := by
  rintro (h | h) <;> cases h

/-- A clean miss that is displaced is not reported.

**Proof sketch.** If the relays have failed, their error is returned in place of the miss; and so is
that of the local network if the relays have found what cannot be dialed. -/
lemma not_disciplined_of_displaced (hlan : lanContext ≠ text) (hnostr : nostrContext ≠ text)
    (hdisplaced : Displaced channel lan nostr) :
      ¬ Disciplined channel lan nostr lanContext nostrContext
      (.msg text) (searchEnd channel lan nostr lanContext nostrContext (.msg text)) := by
  intro h
  obtain ⟨rfl, ⟨hclean, e, rfl⟩ | ⟨⟨e, rfl⟩, rfl⟩⟩ := hdisplaced
  · -- the relays' error is held, whatever the local network answered
    have hend : searchEnd .lanThenNostr lan (.failed e) lanContext nostrContext (.msg text) =
        .error (e.context nostrContext) := by
      rcases hclean with rfl | rfl <;> rfl
    have hmiss := h.clean (fun _ => hclean.not_hit) (fun _ => Seen.failed_not_hit e)
      (.inl ⟨rfl, hclean⟩)
    rw [hend] at hmiss
    exact context_ne_msg hnostr e (Except.error.inj hmiss)
  · -- the record that cannot be dialed does not clear the local network's error
    have hclean : Seen.Clean .unsupported := .inr rfl
    have hmiss := h.clean (fun _ => Seen.failed_not_hit e) (fun _ => hclean.not_hit)
      (.inr ⟨rfl, hclean⟩)
    exact context_ne_msg hlan e (Except.error.inj hmiss)

/-- A lookup returns the hit of the first carrier that has one. -/
lemma searchEnd_lan_hit (miss : Error) (hchannel : channel.lan = true) (addr : EndpointAddr) :
    searchEnd channel (.hit addr) nostr lanContext nostrContext miss = .ok addr := by
  simp only [searchEnd, hchannel, if_true, lanHalf]

/-- A hit on the relays ends the search, if the local network has found nothing. -/
lemma searchEnd_nostr_hit (miss : Error) (hnone : channel.lan = true → ¬ lan.IsHit)
    (hchannel : channel.nostr = true) (addr : EndpointAddr) :
    searchEnd channel lan (.hit addr) lanContext nostrContext miss = .ok addr := by
  cases channel with
  | lanOnly => cases hchannel
  | nostrOnly => rfl
  | lanThenNostr =>
    cases lan with
    | hit addr' => exact absurd ⟨addr', rfl⟩ (hnone rfl)
    | unsupported => rfl
    | miss => rfl
    | failed e => rfl

/-- A carrier without a hit looked or failed. -/
lemma Seen.clean_or_failed {s : Seen} (h : ¬ s.IsHit) : s.Clean ∨ ∃ e, s = .failed e := by
  rcases s.cases_of with hhit | hrest
  · exact absurd hhit h
  · exact hrest

/-- A lookup that one carrier answered cleanly reports the miss, unless it is displaced.

**Proof sketch.** By the channel, and for both carriers by their answers. The two mixed cases are
the displaced ones. -/
lemma searchEnd_clean (miss : Error) (h : ¬ Displaced channel lan nostr)
    (hl : channel.lan = true → ¬ lan.IsHit) (hn : channel.nostr = true → ¬ nostr.IsHit)
    (hclean : channel.lan = true ∧ lan.Clean ∨ channel.nostr = true ∧ nostr.Clean) :
    searchEnd channel lan nostr lanContext nostrContext miss = .error miss := by
  cases channel with
  | lanOnly =>
    rcases hclean with ⟨-, rfl | rfl⟩ | ⟨hoff, -⟩
    · rfl
    · rfl
    · cases hoff
  | nostrOnly =>
    rcases hclean with ⟨hoff, -⟩ | ⟨-, rfl | rfl⟩
    · cases hoff
    · rfl
    · rfl
  | lanThenNostr =>
    rcases Seen.clean_or_failed (hl rfl) with hlan | ⟨e, rfl⟩
    · rcases Seen.clean_or_failed (hn rfl) with (rfl | rfl) | hfailed
      · rcases hlan with rfl | rfl <;> rfl
      · rcases hlan with rfl | rfl <;> rfl
      · exact absurd ⟨rfl, .inl ⟨hlan, hfailed⟩⟩ h
    · rcases hclean with ⟨-, hlan⟩ | ⟨-, rfl | rfl⟩
      · exact absurd hlan (Seen.failed_not_clean e)
      · rfl
      · exact absurd ⟨rfl, .inr ⟨⟨e, rfl⟩, rfl⟩⟩ h

/-- A lookup for which every enabled carrier failed reports the error of the first one.

**Proof sketch.** Each enabled carrier has failed, as it has no hit and no clean answer. The local
network is asked first, so that its error is the one that is kept. -/
lemma searchEnd_failed (miss : Error) (hl : channel.lan = true → ¬ lan.IsHit)
    (hn : channel.nostr = true → ¬ nostr.IsHit)
    (hclean : ¬ (channel.lan = true ∧ lan.Clean ∨ channel.nostr = true ∧ nostr.Clean)) :
    (∃ e, channel.lan = true ∧ lan = .failed e ∧
      searchEnd channel lan nostr lanContext nostrContext miss = .error (e.context lanContext)) ∨
    ∃ e, channel.nostr = true ∧ nostr = .failed e ∧
      searchEnd channel lan nostr lanContext nostrContext miss =
        .error (e.context nostrContext) := by
  have hlan : channel.lan = true → ∃ e, lan = .failed e := fun hon =>
    (Seen.clean_or_failed (hl hon)).resolve_left fun h => hclean (.inl ⟨hon, h⟩)
  have hnostr : channel.nostr = true → ∃ e, nostr = .failed e := fun hon =>
    (Seen.clean_or_failed (hn hon)).resolve_left fun h => hclean (.inr ⟨hon, h⟩)
  cases channel with
  | lanOnly =>
    obtain ⟨e, rfl⟩ := hlan rfl
    exact .inl ⟨e, rfl, rfl, rfl⟩
  | nostrOnly =>
    obtain ⟨e, rfl⟩ := hnostr rfl
    exact .inr ⟨e, rfl, rfl, rfl⟩
  | lanThenNostr =>
    obtain ⟨e, rfl⟩ := hlan rfl
    obtain ⟨e', rfl⟩ := hnostr rfl
    exact .inl ⟨e, rfl, rfl, rfl⟩

/-- **A lookup returns what it has to, unless a clean miss is displaced.**

**Proof sketch.** A displaced miss refutes the demand about clean answers. Without one, each of the
four demands is a lemma about the end of a lookup. -/
theorem search_disciplined_iff (hlan : lanContext ≠ text) (hnostr : nostrContext ≠ text) :
    Disciplined channel lan nostr lanContext nostrContext (.msg text)
      (searchEnd channel lan nostr lanContext nostrContext (.msg text)) ↔
        ¬ Displaced channel lan nostr := by
  refine ⟨fun h hdisplaced => not_disciplined_of_displaced hlan hnostr hdisplaced h, fun h =>
    ⟨?_, ?_, searchEnd_clean _ h, searchEnd_failed _⟩⟩
  · rintro addr hchannel rfl
    exact searchEnd_lan_hit _ hchannel addr
  · rintro addr hnone hchannel rfl
    exact searchEnd_nostr_hit _ hnone hchannel addr

end Ends

/-! ## Both lookups -/

section Lookups

variable (env : ∀ o : Lookup Keys, o.Answer) (parse : String → Option EndpointId)
  (identity : KeyIdentity) (peer : PublicKey) (relays : List String) (targetIp : Option IpAddr)
  (candidates : List Keys) (channel : SignalChannel)

/-- What the local network would answer of a peer that hosts. -/
def lanHostingSeen : Seen :=
  .of (LanFound.hostingAddr parse) (env (.dnssdLookupHosting identity.identity peer))

/-- What the relays would answer of it. -/
def nostrHostingSeen : Seen :=
  .of (fun addr => (endpointId parse addr).map EndpointAddr.new)
    (env (.lookupHosting identity.identity peer identity.relays))

/-- What the local network would answer for the keys of a PIN. With an address the host is probed
there, and without one it is browsed for. -/
def lanPinSeen : Seen :=
  match targetIp with
  | some ip => .of (fun found => some (LanFound.endpointAddr found))
    (env (.unicastLookupPinRecord ip candidates))
  | none => .of (fun found => some (LanFound.endpointAddr found))
    (env (.dnssdLookupPinRecord candidates))

/-- What the relays would answer for them. -/
def nostrPinSeen : Seen :=
  .of (fun id => some (EndpointAddr.new id)) (env (.lookupPinRecord candidates relays))

/-- The lookup of a hosting peer asks enabled carriers only, and returns what it has to. It is
stated of the run: which carriers were asked, and what came of their answers. -/
def HostingDisciplined : Prop :=
  (∀ o ∈ ((resolveHosting parse identity peer channel).run env).1, o.enabled channel = true) ∧
    Disciplined channel (lanHostingSeen env parse identity peer)
      (nostrHostingSeen env parse identity peer) "LAN hosting lookup failed"
      "nostr hosting lookup failed" (hostingMiss channel)
      ((resolveHosting parse identity peer channel).run env).2

/-- So does the lookup of a card setup, if the keys of its PIN can be derived. If not, it asks no
carrier. -/
def CardSetupDisciplined (K : PinKdf Keys) (secs : UInt64) (canonicalPin : String) : Prop :=
  match candidateKeys K canonicalPin secs with
  | .error e => (resolveCardSetup relays targetIp K secs canonicalPin channel).run env =
    ([], .error e)
  | .ok candidates =>
    (∀ o ∈ ((resolveCardSetup relays targetIp K secs canonicalPin channel).run env).1,
      o.enabled channel = true) ∧
    Disciplined channel (lanPinSeen env targetIp candidates) (nostrPinSeen env relays candidates)
      "LAN PIN lookup failed" "nostr PIN lookup failed" (cardSetupMiss targetIp channel)
      ((resolveCardSetup relays targetIp K secs canonicalPin channel).run env).2

/-- A clean miss is displaced in the lookup of a hosting peer. -/
def HostingDisplaced : Prop :=
  Displaced channel (lanHostingSeen env parse identity peer)
    (nostrHostingSeen env parse identity peer)

/-- A clean miss is displaced in the lookup of a card setup. -/
def CardSetupDisplaced (K : PinKdf Keys) (secs : UInt64) (canonicalPin : String) : Prop :=
  ∃ candidates, candidateKeys K canonicalPin secs = .ok candidates ∧
    Displaced channel (lanPinSeen env targetIp candidates) (nostrPinSeen env relays candidates)

/-- The miss of a hosting lookup is told from its errors. -/
lemma hostingMiss_text : ∃ text, hostingMiss channel = .msg text ∧
    "LAN hosting lookup failed" ≠ text ∧ "nostr hosting lookup failed" ≠ text := by
  cases channel with
  | lanOnly => exact ⟨_, rfl, by decide +kernel, by decide +kernel⟩
  | nostrOnly => exact ⟨_, rfl, by decide +kernel, by decide +kernel⟩
  | lanThenNostr => exact ⟨_, rfl, by decide +kernel, by decide +kernel⟩

/-- The miss of a card-setup lookup is told from its errors. -/
lemma cardSetupMiss_text : ∃ text, cardSetupMiss targetIp channel = .msg text ∧
    "LAN PIN lookup failed" ≠ text ∧ "nostr PIN lookup failed" ≠ text := by
  cases channel with
  | lanOnly =>
    cases targetIp with
    | none => exact ⟨_, rfl, by decide +kernel, by decide +kernel⟩
    | some ip => exact ⟨_, rfl, by decide +kernel, by decide +kernel⟩
  | nostrOnly => exact ⟨_, rfl, by decide +kernel, by decide +kernel⟩
  | lanThenNostr => exact ⟨_, rfl, by decide +kernel, by decide +kernel⟩

/-- The lookup of a hosting peer is disciplined unless a clean miss is displaced. -/
lemma hostingDisciplined_iff : HostingDisciplined env parse identity peer channel ↔
    ¬ HostingDisplaced env parse identity peer channel := by
  obtain ⟨text, hmiss, hlan, hnostr⟩ := hostingMiss_text channel
  have huses : (resolveHosting parse identity peer channel).Uses
      fun o : Lookup Keys => o.enabled channel = true :=
    uses_search (fun h => .call h fun _ => .ret _) fun h => .call h fun _ => .ret _
  have hend : ((resolveHosting parse identity peer channel).run env).2 =
      searchEnd channel (lanHostingSeen env parse identity peer)
        (nostrHostingSeen env parse identity peer) "LAN hosting lookup failed"
        "nostr hosting lookup failed" (hostingMiss channel) := run_search rfl rfl
  unfold HostingDisciplined HostingDisplaced
  rw [hend, hmiss, search_disciplined_iff hlan hnostr]
  exact and_iff_right (huses.run env)

/-- The lookup of a card setup is disciplined unless a clean miss is displaced.

**Proof sketch.** No lookup is made if the keys cannot be derived. Else the general statement
applies, to the lookups with the derived keys. -/
lemma cardSetupDisciplined_iff (K : PinKdf Keys) (secs : UInt64) (canonicalPin : String) :
    CardSetupDisciplined env relays targetIp channel K secs canonicalPin ↔
      ¬ CardSetupDisplaced env relays targetIp channel K secs canonicalPin := by
  obtain ⟨text, hmiss, hlan, hnostr⟩ := cardSetupMiss_text targetIp channel
  unfold CardSetupDisciplined CardSetupDisplaced resolveCardSetup
  cases candidateKeys K canonicalPin secs with
  | error e =>
    simp
  | ok candidates =>
    have huses : (search channel (lanPin targetIp candidates) (nostrPin relays candidates)
        "LAN PIN lookup failed" "nostr PIN lookup failed" (cardSetupMiss targetIp channel)).Uses
        fun o : Lookup Keys => o.enabled channel = true := by
      refine uses_search (fun h => ?_) fun h => .call h fun _ => .ret _
      cases targetIp with
      | none => exact .call h fun _ => .ret _
      | some ip => exact .call h fun _ => .ret _
    have hask : ∃ ops, (lanPin targetIp candidates).run env =
        (ops, .ok (lanPinSeen env targetIp candidates)) := by
      cases targetIp with
      | none => exact ⟨_, rfl⟩
      | some ip => exact ⟨_, rfl⟩
    obtain ⟨ops, hask⟩ := hask
    have hend : ((search channel (lanPin targetIp candidates) (nostrPin relays candidates)
        "LAN PIN lookup failed" "nostr PIN lookup failed" (cardSetupMiss targetIp channel)).run
        env).2 = searchEnd channel (lanPinSeen env targetIp candidates)
          (nostrPinSeen env relays candidates) "LAN PIN lookup failed" "nostr PIN lookup failed"
          (cardSetupMiss targetIp channel) := run_search hask rfl
    simp only [Prog.ofExcept_ok, Prog.ret_bind, Except.ok.injEq, exists_eq_left']
    have hasked := huses.run env
    rw [hmiss] at hend hasked ⊢
    rw [hend, search_disciplined_iff hlan hnostr]
    exact and_iff_right hasked

/-- **Both lookups are disciplined unless a clean miss is displaced.** For all answers of the two
carriers, they ask enabled carriers only, return the hit of the local network or else that of the
relays, and report a miss if an enabled carrier looked and found nothing, with one exception. It
takes both carriers, one of which failed: the local network found nothing and the relays failed, or
the local network failed and the relays hold a record that this build cannot dial.

**Proof sketch.** One lemma for each of the two lookups, from the general statement about a search.
-/
theorem resolve_disciplined_iff (K : PinKdf Keys) (secs : UInt64) (canonicalPin : String) :
    (HostingDisciplined env parse identity peer channel ↔
      ¬ HostingDisplaced env parse identity peer channel) ∧
    (CardSetupDisciplined env relays targetIp channel K secs canonicalPin ↔
      ¬ CardSetupDisplaced env relays targetIp channel K secs canonicalPin) :=
  ⟨hostingDisciplined_iff env parse identity peer channel,
    cardSetupDisciplined_iff env relays targetIp channel K secs canonicalPin⟩

end Lookups

section Sample

/-- Nothing on the local network, and relays that cannot be reached. -/
def relaysDown : ∀ o : Lookup Bytes, o.Answer
  | .dnssdLookupHosting _ _ | .unicastLookupPinRecord _ _ | .dnssdLookupPinRecord _ => .ok none
  | .lookupHosting _ _ _ | .lookupPinRecord _ _ => .error (.msg "no relay connected")

/-- A local network that cannot be asked, and a record of another transport on the relays. -/
def foreignRecord : ∀ o : Lookup Bytes, o.Answer
  | .dnssdLookupHosting _ _ | .unicastLookupPinRecord _ _ | .dnssdLookupPinRecord _ =>
    .error (.msg "no multicast route")
  | .lookupHosting _ _ _ => .ok (some ⟨"dummy", "7"⟩)
  | .lookupPinRecord _ _ => .ok none

/-- A device that looks for its peer. -/
def seeker : KeyIdentity :=
  ⟨⟨.filled 1⟩, ⟨.filled 1, "desk_a7B2c3D4", 0, 1, "card"⟩, [], ["wss://relay"]⟩

/-- **An error displaces a clean miss**: that of the relays in both lookups, and that of the local
network if the relays hold a record of another transport.

**Proof sketch.** Each lookup is disciplined exactly if no clean miss is displaced, and in each of
the three environments one is. -/
theorem clean_miss_displaced :
    ¬ HostingDisciplined relaysDown (fun _ => none) seeker (.filled 2)
      .lanThenNostr ∧
    ¬ CardSetupDisciplined relaysDown ["wss://relay"] none .lanThenNostr PinHost.Sample.kdf
      (asSecs PinHost.Sample.after.clock) "M3TDPWFA" ∧
    ¬ HostingDisciplined foreignRecord (fun _ => none) seeker (.filled 2)
      .lanThenNostr := by
  refine ⟨fun h => ?_, fun h => ?_, fun h => ?_⟩
  · exact (hostingDisciplined_iff _ _ _ _ _).1 h ⟨rfl, .inl ⟨.inl rfl, _, rfl⟩⟩
  · exact (cardSetupDisciplined_iff _ _ _ _ _ _ _).1 h
      ⟨_, PinHost.Sample.lookupKeys_eq, rfl, .inl ⟨.inl rfl, _, rfl⟩⟩
  · exact (hostingDisciplined_iff _ _ _ _ _).1 h ⟨rfl, .inr ⟨⟨_, rfl⟩, rfl⟩⟩

end Sample

end Duocb
