import Duocb.Hosting
import Duocb.Lan
import Duocb.Net.Publisher

set_option relaxedAutoImplicit false
set_option autoImplicit false

/-!
# The rounds of the hosting publisher

The hosting publisher holds an advertisement on the local network, and remembers which addresses it
carries. In each round it withdraws the advertisement of a peer whose card is not valid, or else
renews it if the addresses have changed, and publishes to the relays. A round that could announce
this device nowhere is reported, once for a run of them.

Two variables say what stands on the local network: the advertisement, and the addresses that it is
remembered to carry. They agree at the end of every round.

## Main definitions

* `Duocb.HostingLoop`, `Duocb.HostingLoop.round` — the publisher with its advertisement, and a
  round.
* `Duocb.HostingLoop.Ran` — the rounds of a run, from the start.
* `Duocb.HostingLoop.Consistent` — what holds at the end of a round.

## Main results

* `Duocb.HostingLoop.round_refines` — without its advertisement, this is the publisher of a session.
* `Duocb.HostingLoop.Ran.good` — what the publisher remembers of the rounds before.
* `Duocb.HostingLoop.publisher_consistent` — every round of every run is consistent.
-/

namespace Duocb

/-! ## A round -/

/-- The publisher between two rounds: the addresses that the advertisement on the local network
carries, if there is one, and what the publisher remembers. -/
structure HostingLoop where
  advert : Option (List SocketAddr)
  advertised : Option (List SocketAddr)
  reported : Bool
  warnedNotYetValid : Bool
  deriving DecidableEq

/-- What the surroundings answer in one round: the clock, this endpoint's addresses, and whether the
record could be registered on the local network and published to the relays. -/
structure HostingInput where
  now : ℕ
  addrs : List SocketAddr
  registered : Bool
  published : Bool
  deriving DecidableEq

/-- What a round does to the outside: it withdraws the advertisement, tries to register one, tries
to publish to the relays, and surfaces an event. -/
inductive HostingAction where
  | withdraw
  | advertise (addrs : List SocketAddr) (ok : Bool)
  | publish (ok : Bool)
  | surface (e : NetEvent)
  deriving DecidableEq

namespace HostingLoop

/-- A publisher that has published nothing yet. -/
def init : HostingLoop := ⟨none, none, false, false⟩

/-- Dropping an advertisement withdraws it. -/
def dropAdvert (advert : Option (List SocketAddr)) : List HostingAction :=
  if advert.isSome then [.withdraw] else []

/-- The addresses of a round, as they are advertised. -/
def sortedAddrs (r : HostingInput) : List SocketAddr := sortUnstable SocketAddr.key r.addrs

/-- The local network's part of a round: the advertisement and the remembered addresses after it,
and what it does. -/
def lanPart (channel : SignalChannel) (p : HostingLoop) (r : HostingInput) :
    Option (List SocketAddr) × Option (List SocketAddr) × List HostingAction :=
  if channel.lan then
    if p.advertised = some (sortedAddrs r) then (p.advert, p.advertised, [])
    else if r.registered then
      (some (sortedAddrs r), some (sortedAddrs r),
        dropAdvert p.advert ++ [.advertise (sortedAddrs r) true])
    else (none, none, dropAdvert p.advert ++ [.advertise (sortedAddrs r) false])
  else (p.advert, p.advertised, [])

/-- The relays' part of a round. -/
def nostrPart (channel : SignalChannel) (r : HostingInput) : List HostingAction :=
  if channel.nostr then [.publish r.published] else []

variable (identity : KeyIdentity) (peer : PublicKey) (channel : SignalChannel)

/-- The peer's card, if it is valid now. -/
def liveCard (now : ℕ) : Option IdentityCard :=
  (identity.peer peer).filter fun card => card.isValidAt now

/-- The peer's card, if it is not valid yet and this was not said before. -/
def notYetCard (p : HostingLoop) (now : ℕ) : Option IdentityCard :=
  (identity.peer peer).filter fun card => !p.warnedNotYetValid && card.isNotYetValidAt now

/-- What is said of it. -/
def notYetError (now : ℕ) (card : IdentityCard) : NetEvent :=
  .error (expiredCardMessage card now ++ " — that device cannot find this one until then")

/-- One round. A card that is not valid drops the advertisement. With a valid one it is renewed
where the addresses have changed, and the relays get the record at every round. -/
def round (p : HostingLoop) (r : HostingInput) : HostingLoop × List HostingAction :=
  let notYet := p.notYetCard identity peer r.now
  let warned := p.warnedNotYetValid || notYet.isSome
  let warning := notYet.toList.map fun card => HostingAction.surface (notYetError r.now card)
  match liveCard identity peer r.now with
  | none =>
    if p.advertised.isSome then (⟨none, none, p.reported, warned⟩, warning ++ dropAdvert p.advert)
    else (⟨p.advert, p.advertised, p.reported, warned⟩, warning)
  | some _ =>
    let lan := lanPart channel p r
    let published := channel.lan && lan.1.isSome || channel.nostr && r.published
    (⟨lan.1, lan.2.1, !published, warned⟩, warning ++ lan.2.2 ++ nostrPart channel r ++
      (HostingPublisher.announceError published p.reported).map .surface)

variable {identity peer channel}

/-- A round for a card that is not valid leaves nothing advertised.

**Proof sketch.** By whether something was advertised. If nothing was, there is nothing to drop. -/
lemma round_lapsed {p : HostingLoop} {r : HostingInput} (h : p.advert = p.advertised)
    (hlive : liveCard identity peer r.now = none) : p.round identity peer channel r =
      (⟨none, none, p.reported, p.warnedNotYetValid || (p.notYetCard identity peer r.now).isSome⟩,
        ((p.notYetCard identity peer r.now).toList.map fun card =>
          .surface (notYetError r.now card)) ++ dropAdvert p.advert) := by
  unfold round
  rw [hlive]
  by_cases hadvertised : p.advertised.isSome = true
  · exact if_pos hadvertised
  · have hnone : p.advertised = none := Option.not_isSome_iff_eq_none.1 hadvertised
    have hdrop : dropAdvert p.advert = [] := by
      rw [h, hnone]
      rfl
    rw [hdrop, List.append_nil, h, hnone]
    rfl

/-- A round for a card that is valid. -/
lemma round_live {p : HostingLoop} {r : HostingInput} {card : IdentityCard}
    (hlive : liveCard identity peer r.now = some card) {published : Bool} (hpublished : published =
      (channel.lan && (lanPart channel p r).1.isSome || channel.nostr && r.published)) :
    p.round identity peer channel r =
      (⟨(lanPart channel p r).1, (lanPart channel p r).2.1, !published,
        p.warnedNotYetValid || (p.notYetCard identity peer r.now).isSome⟩,
        ((p.notYetCard identity peer r.now).toList.map fun card =>
          .surface (notYetError r.now card)) ++ (lanPart channel p r).2.2 ++ nostrPart channel r ++
          (HostingPublisher.announceError published p.reported).map .surface) := by
  unfold round
  rw [hlive, hpublished]

/-! ## The publisher of a session -/

section Refines

variable (text : SocketAddr → String)

/-- The publisher as a session keeps it: without its advertisement, and addresses as texts. -/
def toPublisher (p : HostingLoop) : HostingPublisher :=
  ⟨p.advertised.map (List.map text), p.reported, p.warnedNotYetValid⟩

/-- The answers of a round as a session takes them. -/
def toRound (r : HostingInput) : HostingRound :=
  ⟨r.now, (sortedAddrs r).map text, r.registered, r.published⟩

/-- The events that are surfaced. -/
def surfaced (actions : List HostingAction) : List NetEvent :=
  actions.filterMap fun
    | .surface e => some e
    | _ => none

variable {text}

/-- The local network's part keeps the advertisement and the remembered addresses together. -/
lemma lanPart_agree {p : HostingLoop} {r : HostingInput} (h : p.advert = p.advertised) :
    (lanPart channel p r).1 = (lanPart channel p r).2.1 := by
  unfold lanPart
  split_ifs
  · exact h
  · rfl
  · rfl
  · exact h

/-- Nothing is surfaced but events. -/
lemma surfaced_append (as bs : List HostingAction) :
    surfaced (as ++ bs) = surfaced as ++ surfaced bs :=
  List.filterMap_append

/-- Events that are surfaced one by one are all surfaced. -/
lemma surfaced_map {β : Type} (f : β → NetEvent) (bs : List β) :
    surfaced (bs.map fun b => .surface (f b)) = bs.map f := by
  rw [surfaced, List.filterMap_map, ← List.filterMap_eq_map]
  rfl

/-- Withdrawing an advertisement surfaces nothing. -/
lemma surfaced_dropAdvert (advert : Option (List SocketAddr)) :
    surfaced (dropAdvert advert) = [] := by
  unfold dropAdvert
  split <;> rfl

/-- Publishing on the relays surfaces nothing by itself. -/
lemma surfaced_nostrPart (r : HostingInput) : surfaced (nostrPart channel r) = [] := by
  unfold nostrPart
  split <;> rfl

/-- Advertising on the local network surfaces nothing by itself. -/
lemma surfaced_lanPart (p : HostingLoop) (r : HostingInput) :
    surfaced (lanPart channel p r).2.2 = [] := by
  unfold lanPart
  split_ifs
  · rfl
  · rw [surfaced_append, surfaced_dropAdvert]
    rfl
  · rw [surfaced_append, surfaced_dropAdvert]
    rfl
  · rfl

/-- **Without its advertisement, this is the publisher of a session**: a round changes what is
remembered, and surfaces, what a session's round does. Addresses are told apart by their texts.

**Proof sketch.** The embedding of an advertisement into the session's list of texts is injective,
so both rounds compare the same addresses. The three parts of a round then agree one by one. -/
theorem round_refines (htext : Function.Injective text) {p : HostingLoop} {r : HostingInput}
    (h : p.advert = p.advertised) :
    ((p.round identity peer channel r).1.toPublisher text,
      surfaced (p.round identity peer channel r).2) =
      (p.toPublisher text).round identity peer channel (toRound text r) := by
  have hsame : (p.advertised.map (List.map text) = some ((sortedAddrs r).map text)) ↔
      p.advertised = some (sortedAddrs r) := by
    rw [← Option.map_some]
    exact (Option.map_injective (List.map_injective_iff.2 htext)).eq_iff
  have hmapped : (lanPart channel p r).2.1.map (List.map text) =
      if channel.lan then
        if p.advertised.map (List.map text) = some ((sortedAddrs r).map text) then
          p.advertised.map (List.map text)
        else if r.registered then some ((sortedAddrs r).map text) else none
      else p.advertised.map (List.map text) := by
    unfold lanPart
    simp only [hsame]
    split_ifs <;> rfl
  have hheld : (lanPart channel p r).1.isSome =
      ((lanPart channel p r).2.1.map (List.map text)).isSome := by
    rw [lanPart_agree h, Option.isSome_map]
  unfold HostingPublisher.round
  cases hlive : liveCard identity peer r.now with
  | none =>
    have hlive' : (identity.peer peer).filter (fun card => card.isValidAt r.now) = none := hlive
    simp only [round_lapsed h hlive, toPublisher, toRound, hlive', surfaced_append, surfaced_map,
      surfaced_dropAdvert, List.append_nil]
    rfl
  | some card =>
    have hlive' : (identity.peer peer).filter (fun card => card.isValidAt r.now) = some card :=
      hlive
    simp only [round_live hlive rfl, toPublisher, toRound, hlive', hheld, hmapped, surfaced_append,
      surfaced_map, surfaced_lanPart, surfaced_nostrPart, List.append_nil]
    congr 2
    exact (surfaced_map id _).trans (List.map_id _)

end Refines

/-! ## Runs -/

/-- A round that was made: the answers of the surroundings, what it did, and what it left. -/
structure Turn where
  input : HostingInput
  actions : List HostingAction
  after : HostingLoop
  deriving DecidableEq

section Runs

variable (identity : KeyIdentity) (peer : PublicKey) (channel : SignalChannel)

/-- The round that a publisher makes. -/
def turn (p : HostingLoop) (r : HostingInput) : Turn :=
  ⟨r, (p.round identity peer channel r).2, (p.round identity peer channel r).1⟩

/-- The rounds of a run, and the publisher after them. -/
inductive Ran : List Turn → HostingLoop → Prop where
  | start : Ran [] init
  | turn {h : List Turn} {p : HostingLoop} (before : Ran h p) (r : HostingInput) :
      Ran (h ++ [p.turn identity peer channel r]) (p.turn identity peer channel r).after

/-- The peer's card was valid at the check of a round. -/
def Turn.live (t : Turn) : Bool := (liveCard identity peer t.input.now).isSome

/-- Whether a round's action is a registration, and succeeded. -/
def attempt : HostingAction → Option Bool
  | .advertise _ ok => some ok
  | _ => none

/-- The latest registration of some rounds. -/
def latest (h : List Turn) : Option Bool := ((h.flatMap Turn.actions).filterMap attempt).getLast?

/-- This device could be found after a round: its advertisement stands, or a publish succeeded. -/
def Turn.announced (t : Turn) : Bool := t.after.advert.isSome || t.actions.contains (.publish true)

/-- The error of a round that could announce this device nowhere. -/
def announceFailed : HostingAction :=
  .surface (.error ("Could not announce this device on any channel — the other device will " ++
    "not find it. Check this device's network connection."))

/-- What holds at the end of a round that came after certain others. It says when an advertisement
stands and what it carries, which registrations are made, and which errors are surfaced. -/
structure Consistent (before : List Turn) (t : Turn) : Prop where
  /-- An advertisement stands exactly if the local network is enabled, the card was valid, and the
  latest registration succeeded. -/
  held : t.after.advert.isSome = true ↔
    channel.lan = true ∧ t.live identity peer = true ∧ latest (before ++ [t]) = some true
  carries : ∀ addrs, t.after.advert = some addrs → addrs = sortedAddrs t.input
  /-- A registration that failed is tried again when the card is valid. -/
  retried : channel.lan = true → t.live identity peer = true → latest before = some false →
    ∃ ok, .advertise (sortedAddrs t.input) ok ∈ t.actions
  enabled : (∀ addrs ok, .advertise addrs ok ∈ t.actions →
      channel.lan = true ∧ t.live identity peer = true ∧ addrs = sortedAddrs t.input) ∧
    ∀ ok, .publish ok ∈ t.actions → channel.nostr = true ∧ t.live identity peer = true
  /-- The error is surfaced once, at the start of each run of rounds that announced nothing, among
  the rounds in which the card was valid. -/
  announces : t.actions.count announceFailed =
    if t.live identity peer = true ∧ t.announced = false ∧
      ∀ t' ∈ (before.filter (Turn.live identity peer)).getLast?, t'.announced = true
    then 1 else 0

/-- What a publisher remembers of the rounds before. -/
structure Good (h : List Turn) (p : HostingLoop) : Prop where
  agree : p.advert = p.advertised
  held : p.advert.isSome = true → channel.lan = true ∧ latest h = some true
  reported : p.reported = ((h.filter (Turn.live identity peer)).getLast?.map fun t =>
    !t.announced).getD false

variable {identity peer channel}

/-! ### What a round does -/

/-- The registrations of rounds follow each other. -/
lemma latest_snoc (h : List Turn) (t : Turn) :
    latest (h ++ [t]) = (t.actions.filterMap attempt).getLast?.or (latest h) := by
  rw [latest, List.flatMap_append, List.filterMap_append, List.getLast?_append, latest]
  simp

/-- Withdrawing an advertisement attempts none. -/
lemma attempts_dropAdvert (advert : Option (List SocketAddr)) :
    (dropAdvert advert).filterMap attempt = [] := by
  unfold dropAdvert
  split <;> rfl

/-- Surfacing events attempts no advertisement. -/
lemma attempts_surface (es : List NetEvent) :
    (es.map HostingAction.surface).filterMap attempt = [] := by
  rw [List.filterMap_map]
  exact List.filterMap_eq_nil_iff.2 fun _ _ => rfl

/-- Publishing on the relays attempts no advertisement. -/
lemma attempts_nostrPart (r : HostingInput) : (nostrPart channel r).filterMap attempt = [] := by
  unfold nostrPart
  split <;> rfl

/-- What the local network's part does, case by case: it is off, its addresses have not changed, or
a registration is tried. -/
inductive LanPart (channel : SignalChannel) (p : HostingLoop) (r : HostingInput) :
    Option (List SocketAddr) × Option (List SocketAddr) × List HostingAction → Prop where
  | off (h : channel.lan = false) : LanPart channel p r (p.advert, p.advertised, [])
  | same (h : channel.lan = true) (same : p.advertised = some (sortedAddrs r)) :
      LanPart channel p r (p.advert, p.advertised, [])
  | renewed (h : channel.lan = true) (changed : p.advertised ≠ some (sortedAddrs r))
      (ok : r.registered = true) : LanPart channel p r (some (sortedAddrs r), some (sortedAddrs r),
        dropAdvert p.advert ++ [.advertise (sortedAddrs r) true])
  | failed (h : channel.lan = true) (changed : p.advertised ≠ some (sortedAddrs r))
      (failed : r.registered = false) : LanPart channel p r (none, none,
        dropAdvert p.advert ++ [.advertise (sortedAddrs r) false])

variable (channel) in
/-- What a round does on the local network is one of three things. -/
lemma lanPart_cases (p : HostingLoop) (r : HostingInput) :
    LanPart channel p r (lanPart channel p r) := by
  unfold lanPart
  split_ifs with hlan hsame hok
  · exact .same hlan hsame
  · exact .renewed hlan hsame hok
  · exact .failed hlan hsame (by simpa using hok)
  · exact .off (by simpa using hlan)

/-- A string's last character, of the text that is appended to it. -/
lemma getLast_append_ne {s t : String} {a : Char} (h : t.toList.getLast? = some a) {u : String}
    (hu : u.toList.getLast? ≠ some a) : s ++ t ≠ u := by
  rintro rfl
  rw [String.toList_append, List.getLast?_append, h] at hu
  exact hu rfl

/-- The two errors of a publisher have different texts: they end differently. -/
lemma surface_notYetError_ne (now : ℕ) (card : IdentityCard) :
    HostingAction.surface (notYetError now card) ≠ announceFailed := by
  intro h
  have htext : expiredCardMessage card now ++ " — that device cannot find this one until then" =
      "Could not announce this device on any channel — the other device will " ++
        "not find it. Check this device's network connection." :=
    NetEvent.error.inj (HostingAction.surface.inj h)
  exact getLast_append_ne (a := 'n') (by decide +kernel) (by decide +kernel) htext

/-- The warning about a card that is not valid yet is not a failed announcement. -/
lemma count_warning (p : HostingLoop) (now : ℕ) :
    (((p.notYetCard identity peer now).toList.map fun card =>
      HostingAction.surface (notYetError now card))).count announceFailed = 0 := by
  refine List.count_eq_zero.2 fun h => ?_
  obtain ⟨card, -, hcard⟩ := List.mem_map.1 h
  exact surface_notYetError_ne now card hcard

/-- Withdrawing an advertisement is not a failed announcement, -/
lemma count_dropAdvert (advert : Option (List SocketAddr)) :
    (dropAdvert advert).count announceFailed = 0 := by
  unfold dropAdvert
  split <;> rfl

/-- nor is publishing on the relays, -/
lemma count_nostrPart (r : HostingInput) : (nostrPart channel r).count announceFailed = 0 := by
  unfold nostrPart
  split <;> rfl

/-- nor is advertising on the local network. -/
lemma count_lanPart (p : HostingLoop) (r : HostingInput) :
    (lanPart channel p r).2.2.count announceFailed = 0 := by
  have h := lanPart_cases channel p r
  generalize lanPart channel p r = part at h ⊢
  cases h with
  | off h => rfl
  | same h same => rfl
  | renewed h changed ok =>
    rw [List.count_append, count_dropAdvert]
    rfl
  | failed h changed failed =>
    rw [List.count_append, count_dropAdvert]
    rfl

/-- A failed publication is announced once, unless it was reported before. -/
lemma count_announceError (published reported : Bool) :
    ((HostingPublisher.announceError published reported).map HostingAction.surface).count
      announceFailed = if published = false ∧ reported = false then 1 else 0 := by
  cases published <;> cases reported <;> decide +kernel

/-- All that dropping an advertisement does is to withdraw it. -/
lemma eq_withdraw_of_mem_dropAdvert {advert : Option (List SocketAddr)} {a : HostingAction}
    (h : a ∈ dropAdvert advert) : a = .withdraw := by
  unfold dropAdvert at h
  split at h
  · exact List.mem_singleton.1 h
  · cases h

/-- All that is done on the relays is to publish, if the channel uses them. -/
lemma mem_nostrPart {r : HostingInput} {a : HostingAction} :
    a ∈ nostrPart channel r ↔ channel.nostr = true ∧ a = .publish r.published := by
  unfold nostrPart
  split_ifs with h <;> simp [h]

/-- All that is done on the local network is to withdraw, and to advertise the sorted addresses if
the channel uses it.

**Proof sketch.** By the four outcomes of the local part: nothing is done, or the old advertisement
is withdrawn and a new one is tried. -/
lemma mem_lanPart {p : HostingLoop} {r : HostingInput} {a : HostingAction}
    (h : a ∈ (lanPart channel p r).2.2) :
    a = .withdraw ∨ channel.lan = true ∧ ∃ ok, a = .advertise (sortedAddrs r) ok := by
  have hcases := lanPart_cases channel p r
  generalize lanPart channel p r = part at h hcases
  cases hcases with
  | off hlan => cases h
  | same hlan same => cases h
  | renewed hlan changed ok =>
    rcases List.mem_append.1 h with h | h
    · exact .inl (eq_withdraw_of_mem_dropAdvert h)
    · exact .inr ⟨hlan, true, List.mem_singleton.1 h⟩
  | failed hlan changed failed =>
    rcases List.mem_append.1 h with h | h
    · exact .inl (eq_withdraw_of_mem_dropAdvert h)
    · exact .inr ⟨hlan, false, List.mem_singleton.1 h⟩

/-- What a round with a valid card does, -/
lemma actions_live {p : HostingLoop} {r : HostingInput} {card : IdentityCard}
    (hlive : liveCard identity peer r.now = some card) {published : Bool} (hpublished : published =
      (channel.lan && (lanPart channel p r).1.isSome || channel.nostr && r.published)) :
    (p.turn identity peer channel r).actions =
      ((p.notYetCard identity peer r.now).toList.map fun card =>
          .surface (notYetError r.now card)) ++ (lanPart channel p r).2.2 ++ nostrPart channel r ++
          (HostingPublisher.announceError published p.reported).map .surface :=
  congrArg Prod.snd (round_live hlive hpublished)

/-- and what it leaves. -/
lemma after_live {p : HostingLoop} {r : HostingInput} {card : IdentityCard}
    (hlive : liveCard identity peer r.now = some card) {published : Bool} (hpublished : published =
      (channel.lan && (lanPart channel p r).1.isSome || channel.nostr && r.published)) :
    (p.turn identity peer channel r).after =
      ⟨(lanPart channel p r).1, (lanPart channel p r).2.1, !published,
        p.warnedNotYetValid || (p.notYetCard identity peer r.now).isSome⟩ :=
  congrArg Prod.fst (round_live hlive hpublished)

/-- What a round with a valid card does but surface events, one of its two parts does.

**Proof sketch.** The other parts of the round surface events only. -/
lemma mem_actions_live {p : HostingLoop} {r : HostingInput} {card : IdentityCard}
    (hlive : liveCard identity peer r.now = some card) {a : HostingAction}
    (ha : ∀ e, a ≠ .surface e) : a ∈ (p.turn identity peer channel r).actions ↔
      a ∈ (lanPart channel p r).2.2 ∨ a ∈ nostrPart channel r := by
  have hwarning : a ∉ (p.notYetCard identity peer r.now).toList.map fun card =>
      HostingAction.surface (notYetError r.now card) := by
    intro h
    obtain ⟨card, -, h⟩ := List.mem_map.1 h
    exact ha _ h.symm
  have herror : ∀ es : List NetEvent, a ∉ es.map HostingAction.surface := by
    intro es h
    obtain ⟨e, -, h⟩ := List.mem_map.1 h
    exact ha e h.symm
  rw [actions_live hlive rfl, List.mem_append, List.mem_append, List.mem_append,
    iff_false_intro hwarning, iff_false_intro (herror _), false_or, or_false]

/-- Whether a publish to the relays succeeded in a round with a valid card. -/
lemma publish_mem_iff {p : HostingLoop} {r : HostingInput} {card : IdentityCard}
    (hlive : liveCard identity peer r.now = some card) {ok : Bool} :
    .publish ok ∈ (p.turn identity peer channel r).actions ↔
      channel.nostr = true ∧ ok = r.published := by
  have hlan : .publish ok ∉ (lanPart channel p r).2.2 := by
    intro h
    rcases mem_lanPart h with h | ⟨-, ok, h⟩ <;> cases h
  rw [mem_actions_live hlive (by simp), iff_false_intro hlan, false_or, mem_nostrPart,
    HostingAction.publish.injEq]

/-- A registration is tried in a round with a valid card exactly if the local network's part tries
it. -/
lemma advertise_mem_iff {p : HostingLoop} {r : HostingInput} {card : IdentityCard}
    (hlive : liveCard identity peer r.now = some card) {addrs : List SocketAddr} {ok : Bool} :
    .advertise addrs ok ∈ (p.turn identity peer channel r).actions ↔
      .advertise addrs ok ∈ (lanPart channel p r).2.2 := by
  have hnostr : .advertise addrs ok ∉ nostrPart channel r := by
    intro h
    cases (mem_nostrPart.1 h).2
  rw [mem_actions_live hlive (by simp), iff_false_intro hnostr, or_false]

/-- A round with a valid card registers what the local network's part registers. -/
lemma attempts_live {p : HostingLoop} {r : HostingInput} {card : IdentityCard}
    (hlive : liveCard identity peer r.now = some card) :
    (p.turn identity peer channel r).actions.filterMap attempt =
      (lanPart channel p r).2.2.filterMap attempt := by
  have hwarning : ((p.notYetCard identity peer r.now).toList.map fun card =>
      HostingAction.surface (notYetError r.now card)).filterMap attempt = [] := by
    rw [List.filterMap_map]
    exact List.filterMap_eq_nil_iff.2 fun _ _ => rfl
  rw [actions_live hlive rfl, List.filterMap_append, List.filterMap_append, List.filterMap_append,
    hwarning, attempts_nostrPart, attempts_surface, List.nil_append, List.append_nil,
    List.append_nil]

/-- A round with a valid card surfaces the error exactly if nothing was announced, and that was not
reported yet. -/
lemma count_live {p : HostingLoop} {r : HostingInput} {card : IdentityCard}
    (hlive : liveCard identity peer r.now = some card) {published : Bool} (hpublished : published =
      (channel.lan && (lanPart channel p r).1.isSome || channel.nostr && r.published)) :
    (p.turn identity peer channel r).actions.count announceFailed =
      if published = false ∧ p.reported = false then 1 else 0 := by
  rw [actions_live hlive hpublished, List.count_append, List.count_append, List.count_append,
    count_warning, count_lanPart, count_nostrPart, count_announceError, Nat.zero_add]

/-- Whether this device can be found after a round with a valid card: what the round itself goes by.

**Proof sketch.** An advertisement stands only if the channel uses the local network, so that what
the round remembers is what it announces. -/
lemma announced_live {p : HostingLoop} {r : HostingInput} {card : IdentityCard}
    (hlive : liveCard identity peer r.now = some card)
    (hlan : p.advert.isSome = true → channel.lan = true) :
    (p.turn identity peer channel r).announced =
      (channel.lan && (lanPart channel p r).1.isSome || channel.nostr && r.published) := by
  have hafter : (p.turn identity peer channel r).after = _ := after_live hlive rfl
  have hstands : (lanPart channel p r).1.isSome = true → channel.lan = true := by
    have hcases := lanPart_cases channel p r
    generalize lanPart channel p r = part at hcases ⊢
    cases hcases with
    | off h => exact hlan
    | same h same => exact fun _ => h
    | renewed h changed ok => exact fun _ => h
    | failed h changed failed => exact fun _ => h
  rw [Bool.eq_iff_iff, Turn.announced, hafter, Bool.or_eq_true, List.contains_iff_mem,
    publish_mem_iff hlive, Bool.or_eq_true, Bool.and_eq_true, Bool.and_eq_true]
  constructor
  · rintro (h | ⟨hnostr, h⟩)
    · exact .inl ⟨hstands h, h⟩
    · exact .inr ⟨hnostr, h.symm⟩
  · rintro (⟨-, h⟩ | ⟨hnostr, h⟩)
    · exact .inl h
    · exact .inr ⟨hnostr, h.symm⟩

/-! ### The rounds of a run -/

/-- A round for a card that is not valid: it registers, publishes and reports nothing, and leaves no
advertisement.

**Proof sketch.** The round is computed once: nothing is due but the report of a card that is not
valid yet. Each clause of consistency is then read off the list of its actions. -/
lemma Good.lapsed {before : List Turn} {p : HostingLoop} {r : HostingInput}
    (h : Good identity peer channel before p) (hlive : liveCard identity peer r.now = none) :
    Consistent identity peer channel before (p.turn identity peer channel r) ∧
      Good identity peer channel (before ++ [p.turn identity peer channel r])
        (p.turn identity peer channel r).after := by
  have hafter : (p.turn identity peer channel r).after = ⟨none, none, p.reported,
      p.warnedNotYetValid || (p.notYetCard identity peer r.now).isSome⟩ :=
    congrArg Prod.fst (round_lapsed h.agree hlive)
  have hactions : (p.turn identity peer channel r).actions =
      ((p.notYetCard identity peer r.now).toList.map fun card =>
        .surface (notYetError r.now card)) ++ dropAdvert p.advert :=
    congrArg Prod.snd (round_lapsed h.agree hlive)
  have hdead : ¬ (p.turn identity peer channel r).live identity peer = true := by
    intro hlive'
    rw [Turn.live, turn, hlive] at hlive'
    cases hlive'
  have hmem : ∀ a ∈ (p.turn identity peer channel r).actions, a = .withdraw ∨
      ∃ e, a = .surface e := by
    intro a ha
    rw [hactions] at ha
    rcases List.mem_append.1 ha with ha | ha
    · obtain ⟨card, -, rfl⟩ := List.mem_map.1 ha
      exact .inr ⟨_, rfl⟩
    · exact .inl (eq_withdraw_of_mem_dropAdvert ha)
  refine ⟨⟨?_, ?_, fun _ hlive' => absurd hlive' hdead, ⟨?_, ?_⟩, ?_⟩, ⟨?_, ?_, ?_⟩⟩
  · rw [hafter]
    exact ⟨fun hsome => (by cases hsome), fun hheld => absurd hheld.2.1 hdead⟩
  · rw [hafter]
    intro addrs haddrs
    cases haddrs
  · intro addrs ok ha
    rcases hmem _ ha with ha | ⟨e, ha⟩ <;> cases ha
  · intro ok ha
    rcases hmem _ ha with ha | ⟨e, ha⟩ <;> cases ha
  · rw [if_neg fun hstart => hdead hstart.1, hactions, List.count_append, count_warning,
      count_dropAdvert]
  · rw [hafter]
  · rw [hafter]
    intro hsome
    cases hsome
  · rw [hafter, List.filter_append, List.filter_cons_of_neg hdead, List.filter_nil, List.append_nil]
    exact h.reported

/-- A round with a valid card renews the advertisement if the local network is enabled, publishes if
the relays are, and reports if it could announce nothing and that is new.

**Proof sketch.** The round is computed once, by whether the addresses have changed and what
registering and publishing answer. Each clause of consistency is then read off the list of its
actions, and what is remembered is what was announced. -/
lemma Good.live {before : List Turn} {p : HostingLoop} {r : HostingInput} {card : IdentityCard}
    (h : Good identity peer channel before p)
    (hlive : liveCard identity peer r.now = some card) :
    Consistent identity peer channel before (p.turn identity peer channel r) ∧
      Good identity peer channel (before ++ [p.turn identity peer channel r])
        (p.turn identity peer channel r).after := by
  have hafter : (p.turn identity peer channel r).after = _ := after_live hlive rfl
  have halive : (p.turn identity peer channel r).live identity peer = true := by
    rw [Turn.live, turn, hlive]
    rfl
  have hannounced : (p.turn identity peer channel r).announced = _ :=
    announced_live hlive fun hsome => (h.held hsome).1
  have hlatest := latest_snoc before (p.turn identity peer channel r)
  rw [attempts_live hlive] at hlatest
  -- What stands on the local network after the round, and which registration was the latest.
  have hstands : (lanPart channel p r).1.isSome = true ↔
      channel.lan = true ∧ latest (before ++ [p.turn identity peer channel r]) = some true := by
    rw [hlatest]
    have hcases := lanPart_cases channel p r
    generalize lanPart channel p r = part at hcases ⊢
    cases hcases with
    | off hlan => exact ⟨fun hsome => h.held hsome, fun hon => by simp [hlan] at hon⟩
    | same hlan same =>
      have hsome : p.advert.isSome = true := by
        rw [h.agree, same]
        rfl
      exact ⟨fun _ => h.held hsome, fun _ => hsome⟩
    | renewed hlan changed ok =>
      rw [List.filterMap_append, attempts_dropAdvert]
      exact ⟨fun _ => ⟨hlan, rfl⟩, fun _ => rfl⟩
    | failed hlan changed failed =>
      rw [List.filterMap_append, attempts_dropAdvert]
      exact ⟨fun hsome => (by cases hsome), fun hon => (by simp [attempt] at hon)⟩
  have hcarries : ∀ addrs, (lanPart channel p r).1 = some addrs → addrs = sortedAddrs r := by
    have hcases := lanPart_cases channel p r
    generalize lanPart channel p r = part at hcases ⊢
    intro addrs haddrs
    cases hcases with
    | off hlan =>
      have hon := (h.held (Option.isSome_iff_exists.2 ⟨addrs, haddrs⟩)).1
      exact absurd hon (by simp [hlan])
    | same hlan same =>
      rw [h.agree, same] at haddrs
      exact (Option.some.inj haddrs).symm
    | renewed hlan changed ok => exact (Option.some.inj haddrs).symm
    | failed hlan changed failed => cases haddrs
  refine ⟨⟨?_, ?_, ?_, ⟨?_, ?_⟩, ?_⟩, ⟨?_, ?_, ?_⟩⟩
  · rw [hafter, hstands]
    exact ⟨fun hheld => ⟨hheld.1, halive, hheld.2⟩, fun hheld => ⟨hheld.1, hheld.2.2⟩⟩
  · rw [hafter]
    exact hcarries
  · intro hlan _ hfailed
    -- Nothing stands after a registration that failed, so no addresses are remembered.
    have hnone : p.advertised ≠ some (sortedAddrs r) := by
      intro hsame
      have hheld := (h.held (by rw [h.agree, hsame]; rfl)).2
      rw [hfailed] at hheld
      cases hheld
    refine ⟨r.registered, (advertise_mem_iff hlive).2 ?_⟩
    unfold lanPart
    rw [if_pos hlan, if_neg hnone]
    cases r.registered <;> exact List.mem_append_right _ List.mem_cons_self
  · intro addrs ok ha
    rcases mem_lanPart ((advertise_mem_iff hlive).1 ha) with ha | ⟨hlan, ok', ha⟩
    · cases ha
    · cases ha
      exact ⟨hlan, halive, rfl⟩
  · intro ok ha
    exact ⟨((publish_mem_iff hlive).1 ha).1, halive⟩
  · rw [count_live hlive hannounced]
    have hreported : p.reported = false ↔
        ∀ t ∈ (before.filter (Turn.live identity peer)).getLast?, t.announced = true := by
      rw [h.reported]
      cases (before.filter (Turn.live identity peer)).getLast? with
      | none => simp
      | some t => simp
    simp only [hreported, halive, true_and]
  · rw [hafter]
    exact lanPart_agree h.agree
  · rw [hafter]
    exact hstands.1
  · rw [List.filter_append, List.filter_cons_of_pos halive, List.filter_nil,
      List.getLast?_append, List.getLast?_singleton, Option.some_or, Option.map_some,
        Option.getD_some, hannounced, hafter]

/-- **Step.** A round keeps what the publisher remembers in step with the rounds before it. -/
lemma Good.step {before : List Turn} {p : HostingLoop} (h : Good identity peer channel before p)
    (r : HostingInput) : Consistent identity peer channel before (p.turn identity peer channel r) ∧
      Good identity peer channel (before ++ [p.turn identity peer channel r])
        (p.turn identity peer channel r).after := by
  cases hlive : liveCard identity peer r.now with
  | none => exact h.lapsed hlive
  | some card => exact h.live hlive

/-- **Run.** What a publisher remembers is what its rounds did. -/
lemma Ran.good {h : List Turn} {p : HostingLoop} (hran : Ran identity peer channel h p) :
    Good identity peer channel h p := by
  induction hran with
  | start => exact ⟨rfl, fun hsome => (by cases hsome), rfl⟩
  | turn before r ih => exact (ih.step r).2

/-- **Every round of every run of the hosting publisher is consistent**, whatever the clock, the
addresses and the outcomes of registering and publishing are in its rounds.

**Proof sketch.** By induction on the run. The last turn is consistent by the step lemma, since the
turns before it have left a good publisher, and an earlier one is so by induction. -/
theorem publisher_consistent {h : List Turn} {p : HostingLoop}
    (hran : Ran identity peer channel h p)
    {before after : List Turn} {t : Turn} (ht : h = before ++ t :: after) :
    Consistent identity peer channel before t := by
  induction hran generalizing after with
  | start => simp at ht
  | turn earlier r ih =>
    rcases List.eq_nil_or_concat after with rfl | ⟨after, last, rfl⟩
    · obtain ⟨rfl, hturn⟩ := List.append_inj' ht rfl
      rw [← (List.cons.inj hturn).1]
      exact (earlier.good.step r).1
    · rw [List.concat_eq_append, ← List.cons_append, ← List.append_assoc] at ht
      obtain ⟨rfl, -⟩ := List.append_inj' ht rfl
      exact ih rfl

end Runs

section Sample

/-- A peer whose card is valid until second 100, and the device that hosts for it. -/
def samplePeer : IdentityCard := ⟨.filled 2, "desk", 0, 100, ""⟩

/-- The device that hosts for it. -/
def sampleHost : KeyIdentity := ⟨⟨.filled 1⟩, samplePeer, [samplePeer], []⟩

/-- A publisher's first two rounds. In the second, the network is back on the relays. -/
def sampleFirst : Turn :=
  init.turn sampleHost samplePeer.publicKey .lanThenNostr
    ⟨10, [.v4 0x7f000001 4433], false, false⟩

/-- The second round, in which the network is back on the relays. -/
def sampleSecond : Turn :=
  sampleFirst.after.turn sampleHost samplePeer.publicKey .lanThenNostr
    ⟨20, [.v4 0x7f000001 4433], false, true⟩

/-- The first round is reported, and the second tries the registration again. -/
theorem publisher_consistent_sample : sampleFirst.actions.count announceFailed = 1 ∧
    ∃ ok, .advertise (sortedAddrs sampleSecond.input) ok ∈ sampleSecond.actions := by
  have hran : Ran sampleHost samplePeer.publicKey .lanThenNostr [sampleFirst, sampleSecond]
      sampleSecond.after := .turn (.turn .start _) _
  have hfirst : Consistent sampleHost samplePeer.publicKey .lanThenNostr [] sampleFirst :=
    publisher_consistent hran rfl
  have hsecond :
      Consistent sampleHost samplePeer.publicKey .lanThenNostr [sampleFirst] sampleSecond :=
    publisher_consistent hran rfl
  refine ⟨?_, hsecond.retried rfl (by decide +kernel) (by decide +kernel)⟩
  rw [hfirst.announces]
  decide +kernel

end Sample

end HostingLoop

end Duocb
