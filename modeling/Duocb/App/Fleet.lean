import Duocb.App.Trust
import Duocb.Card.PairingCode
import Duocb.System

set_option relaxedAutoImplicit false
set_option autoImplicit false

/-!
# Devices that trade cards

Any number of devices whose users compare pairing codes, in surroundings that deliver any cards to
any of them at any time. A user confirms a card when the code next to it is one that another of the
devices has on its screen, or had there before; who confirms first does not matter. Cards that are
pasted come from the devices themselves.

## Main definitions

* `Duocb.App.codeOnScreen` — the pairing code that a device shows.
* `Duocb.Fleet`, `Duocb.Fleet.step` — the devices, with the codes that they have shown so far.
* `Duocb.Fleet.Careful` — how the users go about it.

## Main results

* `Duocb.Fleet.trusts_itself` — no device trusts any but the others, or starts a session with it.
-/

namespace Duocb

variable {ι τ : Type} {N : Nostr} {B : Bech32} {J : ConfigJson}

namespace App

/-- The pairing code on the screen of a device that asks for a confirmation. -/
def codeOnScreen (sha256 : Bytes → Bytes) (a : App τ) : Option String :=
  if a.screen = .cardConfirm then
    a.pendingPeerCard.bind fun card =>
      (pairingCode sha256 a.identity.publicKey card.publicKey).toOption
  else none

/-- It is the one of the card that waits, and next to it.

**Proof sketch.** The code is computed from the card that waits, if there is one, and the display
computes the same code beside its name. -/
lemma codeOnScreen_eq_some {sha256 : Bytes → Bytes} {a : App τ} {code : String}
    (h : a.codeOnScreen sha256 = some code) :
    ∃ card, a.pendingPeerCard = some card ∧
      pairingCode sha256 a.identity.publicKey card.publicKey = .ok code ∧
      ∀ w, a.incomingCardDisplay sha256 w = (card.name, code, cardExpiryNote w card) := by
  simp only [codeOnScreen, Option.ite_none_right_eq_some, Option.bind_eq_some_iff] at h
  obtain ⟨-, card, hcard, hcode⟩ := h
  refine ⟨card, hcard, ?_, fun w => ?_⟩
  · cases hres : pairingCode sha256 a.identity.publicKey card.publicKey with
    | error e =>
      rw [hres] at hcode
      cases hcode
    | ok code' =>
      rw [hres] at hcode
      rw [Option.some.inj hcode]
  · simp only [incomingCardDisplay, hcard, hcode, Option.getD_some]

/-- No card waits at a launch. -/
lemma Launched.pendingPeerCard {path : String} {a : App τ} (h : a.Launched N B J path) :
    a.pendingPeerCard = none := by
  obtain ⟨identity, suffix, s, cfg, channel, w, failure, -, -, hnew⟩ := h
  simp only [new, bind_eq_ok, pure, Except.pure, Except.ok.injEq] at hnew
  obtain ⟨own, -, rfl⟩ := hnew
  exact (held_renewSelfCardIfStale _ w _ failure).1

/-- Sending a text starts no session. -/
lemma sendText_kinds (a : App τ) (text : String) {cmd : UiCommand}
    (hcmd : cmd ∈ (a.sendText text).2) : cmd.kind? = none := by
  unfold sendText at hcmd
  split_ifs at hcmd
  · cases hcmd
  · rw [List.mem_singleton.1 hcmd]
    rfl

/-- Sending a text starts no session. -/
lemma sendClipboard_kinds (a : App τ) (read : Except String String) {cmd : UiCommand}
    (hcmd : cmd ∈ (a.sendClipboard read).2) : cmd.kind? = none := by
  unfold sendClipboard at hcmd
  split at hcmd
  · split_ifs at hcmd
    · cases hcmd
    · cases hcmd
    · exact a.sendText_kinds _ hcmd
  · cases hcmd

/-- A session is started with a trusted device only.

**Proof sketch.** By cases on the action. A session is planned with a card that was found in the
trusted list, and the actions before it leave that list alone. -/
lemma peer_of_command {a : App τ} {w : Wall} {u : UserAction} {cmd : UiCommand}
    {kind : SessionKind} {key : PublicKey} (hcmd : cmd ∈ (a.act w u).2)
    (hkind : cmd.kind? = some kind) (hkey : kind.peer = some key) :
    ∃ card ∈ a.peers, card.publicKey = key := by
  have hsession : ∀ b : App τ, b.peers = a.peers → cmd ∈ (b.startClipboardSession w).2.2 →
      ∃ card ∈ a.peers, card.publicKey = key := by
    intro b hpeers hb
    unfold startClipboardSession at hb
    split at hb
    · rename_i hosting command card hplan hcard
      obtain ⟨kind', hkind', hpeer'⟩ := sessionPlan_kind hplan hcard
      obtain ⟨key', -, hfind⟩ := Option.bind_eq_some_iff.1 hcard
      have hmem : card ∈ a.peers := hpeers ▸ List.mem_of_find?_eq_some hfind
      split_ifs at hb
      · cases hb
      all_goals
        obtain rfl := List.mem_singleton.1 hb
        obtain rfl := Option.some.inj (hkind.symm.trans hkind')
        exact ⟨card, hmem, Option.some.inj (hpeer'.symm.trans hkey)⟩
    · cases hb
  cases u with
  | connectSelected =>
    refine hsession a rfl ?_
    simp only [act, connectSelectedPeer] at hcmd
    split at hcmd
    · rename_i h
      rwa [h]
    · rename_i h
      rwa [h]
  | retryConnect =>
    simp only [act, retryConnection] at hcmd
    split_ifs at hcmd
    · exact hsession { a with error := none } rfl hcmd
    · cases hcmd
  | goBack =>
    exact absurd hkind (by simp [(a.stopSession_plain cmd hcmd).1])
  | hostCardSetup =>
    simp only [act, hostCardSetup] at hcmd
    split at hcmd
    · cases hcmd
    · obtain rfl := List.mem_singleton.1 hcmd
      obtain rfl := Option.some.inj hkind
      cases hkey
  | joinCardSetup pin ip label =>
    simp only [act, joinCardSetup] at hcmd
    split at hcmd
    · cases hcmd
    · rename_i spec hspec
      obtain rfl := List.mem_singleton.1 hcmd
      obtain rfl := Option.some.inj hkind
      obtain ⟨canonicalPin, selfCard, target, rfl⟩ := cardSetupDialSpec_eq_some hspec
      cases hkey
  | sendClipboard read =>
    have hnone := sendClipboard_kinds a read hcmd
    rw [hkind] at hnone
    cases hnone
  | composeSend draft =>
    have hnone := sendText_kinds a draft hcmd
    rw [hkind] at hnone
    cases hnone
  | refreshPin | queryConnPath =>
    obtain rfl := List.mem_singleton.1 hcmd
    cases hkind
  | _ => cases hcmd

end App

/-- Devices, by their names. -/
structure Fleet (ι τ : Type) where
  device : ι → App τ
  /-- The pairing codes that were on their screens so far, with the keys of who showed them. -/
  shown : List (PublicKey × String)

namespace Fleet

variable (sha256 : Bytes → Bytes) (own known : Set PublicKey)

/-- One step of one of the devices. -/
def step [DecidableEq ι] (f : Fleet ι τ) (l : ι × UiStep τ) : Option (Fleet ι τ) :=
  ((f.device l.1).uiStep l.2).map fun a => ⟨Function.update f.device l.1 a,
    ((a.codeOnScreen sha256).map fun code => (a.identity.publicKey, code)).toList ++ f.shown⟩

/-- How the users of the devices go about a step. `own` are the keys that the devices have in turn,
and `known` all keys that anybody has made. -/
structure Careful (f : Fleet ι τ) (l : ι × UiStep τ) : Prop where
  /-- Only cards of the devices are pasted. -/
  pasted : ∀ w card failure,
    l.2.fired (f.device l.1) = some (w, .importPeerCard (some card) failure) → card.publicKey ∈ own
  /-- A card is confirmed under a code that a device of another key has shown. -/
  compared : ∀ w failure, l.2.fired (f.device l.1) = some (w, .importReceivedCard failure) →
    ∃ key code, (key, code) ∈ f.shown ∧ key ≠ (f.device l.1).identity.publicKey ∧
      (f.device l.1).codeOnScreen sha256 = some code
  /-- The identities of the devices are their own. -/
  identity : ∀ a, (f.device l.1).uiStep l.2 = some a → a.identity.publicKey ∈ own
  /-- Whatever card arrives has a key that somebody has made. -/
  arrived : ∀ now card, l.2 = .event now (.peerCardReceived card) → card.publicKey ∈ known
  fresh : l.2.Fresh (f.device l.1)

/-- What holds of each device. -/
structure Within (a : App τ) : Prop where
  trusting : a.TrustInv
  identity : a.identity.publicKey ∈ own
  pending : ∀ card, a.pendingPeerCard = some card → card.publicKey ∈ known
  peers : ∀ card ∈ a.peers, card.publicKey ∈ own

/-- What holds of all of them. -/
structure Inv (f : Fleet ι τ) : Prop where
  devices : ∀ i, Within own known (f.device i)
  /-- Each code stands for a device and the holder of a key that somebody has made. -/
  shown : ∀ key code, (key, code) ∈ f.shown →
    key ∈ own ∧ ∃ other ∈ known, pairingCode sha256 key other = .ok code

variable {sha256 own known}

/-- **Two who read the same code hold each other's keys**, when no two keys that anybody has made
share a fingerprint. -/
lemma held_of_code (hsha : ∀ m, (sha256 m).length = 32)
    (hinj : known.InjOn (keyFingerprint sha256)) {a b x y : PublicKey} (ha : a ∈ known)
    (hb : b ∈ known) (hx : x ∈ known) (hy : y ∈ known) (hne : a ≠ b) {code : String}
    (hax : pairingCode sha256 a x = .ok code) (hby : pairingCode sha256 b y = .ok code) :
    x = b ∧ y = a := by
  rcases pairingCode_eq_ok hax with hax | hax <;> rcases pairingCode_eq_ok hby with hby | hby <;>
    obtain ⟨hfirst, hsecond⟩ := code_inj hsha (hax.symm.trans hby)
  · exact absurd (hinj ha hb hfirst) hne
  · exact ⟨hinj hx hb hsecond, (hinj ha hy hfirst).symm⟩
  · exact ⟨hinj hx hb hfirst, (hinj ha hy hsecond).symm⟩
  · exact absurd (hinj ha hb hsecond) hne

/-- **A card under the code of another device is that device's.**

**Proof sketch.** The code that was shown is one of the other device's key and of a known key. The
lemma before applies to the two devices, so that the card that waits here has the other one's
key. -/
lemma Inv.confirmed (hsha : ∀ m, (sha256 m).length = 32) (hsub : own ⊆ known)
    (hinj : known.InjOn (keyFingerprint sha256)) {f : Fleet ι τ} (h : f.Inv sha256 own known)
    {i : ι} {key : PublicKey} {code : String} (hshown : (key, code) ∈ f.shown)
    (hne : key ≠ (f.device i).identity.publicKey)
    (hcode : (f.device i).codeOnScreen sha256 = some code) :
    ∃ card, (f.device i).pendingPeerCard = some card ∧ card.publicKey = key ∧
      ∀ w, (f.device i).incomingCardDisplay sha256 w =
        (card.name, code, cardExpiryNote w card) := by
  obtain ⟨hkey, other, hother, hpair⟩ := h.shown key code hshown
  obtain ⟨card, hcard, hread, hdisplay⟩ := App.codeOnScreen_eq_some hcode
  have hdevice := h.devices i
  have hheld := held_of_code hsha hinj (hsub hdevice.identity) (hsub hkey)
    (hdevice.pending card hcard) hother hne.symm hread hpair
  exact ⟨card, hcard, hheld.1, hdisplay⟩

/-- A card that a careful user puts on the trusted list is one of the devices'. -/
lemma Inv.granted (hsha : ∀ m, (sha256 m).length = 32) (hsub : own ⊆ known)
    (hinj : known.InjOn (keyFingerprint sha256)) {f : Fleet ι τ} (h : f.Inv sha256 own known)
    {l : ι × UiStep τ} (hcareful : f.Careful sha256 own known l) {a : App τ}
    (hstep : (f.device l.1).uiStep l.2 = some a) {card : IdentityCard} (hcard : card ∈ a.peers)
    (hnew : card ∉ (f.device l.1).peers) : card.publicKey ∈ own := by
  obtain ⟨w, failure, -, ⟨hfired, -⟩ | ⟨hfired, -, hpending, -⟩⟩ :=
    (h.devices l.1).trusting.granted sha256 hstep hcard hnew
  · exact hcareful.pasted w card failure hfired
  · obtain ⟨key, code, hshown, hne, hcode⟩ := hcareful.compared w failure hfired
    obtain ⟨card', hpending', rfl, -⟩ := h.confirmed hsha hsub hinj hshown hne hcode
    obtain rfl := Option.some.inj (hpending.symm.trans hpending')
    exact (h.shown _ code hshown).1

/-- A step of a device keeps what holds of it, when what it comes to trust is one of the devices.

**Proof sketch.** The card that waits was there before, or it came with the event, or the action has
left it alone. A card that is trusted was trusted before, or it is new. -/
lemma Within.uiStep {a b : App τ} {s : UiStep τ} (h : Within own known a)
    (hstep : a.uiStep s = some b) (hidentity : b.identity.publicKey ∈ own)
    (harrived : ∀ now card, s = .event now (.peerCardReceived card) → card.publicKey ∈ known)
    (hfresh : s.Fresh a) (hnew : ∀ card ∈ b.peers, card ∉ a.peers → card.publicKey ∈ own) :
    Within own known b where
  trusting := h.trusting.uiStep hfresh hstep
  identity := hidentity
  pending card hcard := by
    rcases App.uiStep_cases hstep with ⟨now, e, rfl, rfl⟩ | ⟨w, u, -, -, rfl⟩ | rfl
    · rcases a.applyEvent_pending now e with ⟨hpending, -⟩ | ⟨card', rfl, -, hpending⟩
      · exact h.pending card (hpending.symm.trans hcard)
      · obtain rfl := Option.some.inj (hpending.symm.trans hcard)
        exact harrived now card' rfl
    · rcases a.act_pending w u with ⟨hpending, -⟩ | ⟨hnone, -⟩
      · exact h.pending card (hpending.symm.trans hcard)
      · rw [hnone] at hcard
        cases hcard
    · exact h.pending card hcard
  peers card hcard := by
    by_cases hold : card ∈ a.peers
    · exact h.peers card hold
    · exact hnew card hcard hold

/-- **A careful step keeps what holds of all devices.**

**Proof sketch.** The device that moves keeps what holds of it, by the lemma before, and the others
stay as they are. A code that it shows is recorded with its key. -/
lemma Inv.step [DecidableEq ι] (hsha : ∀ m, (sha256 m).length = 32) (hsub : own ⊆ known)
    (hinj : known.InjOn (keyFingerprint sha256)) {f g : Fleet ι τ} (h : f.Inv sha256 own known)
    {l : ι × UiStep τ} (hcareful : f.Careful sha256 own known l)
    (hstep : f.step sha256 l = some g) : g.Inv sha256 own known := by
  obtain ⟨a, ha, rfl⟩ := Option.map_eq_some_iff.1 hstep
  have hwithin : Within own known a :=
    (h.devices l.1).uiStep ha (hcareful.identity a ha) hcareful.arrived hcareful.fresh
      fun card hcard hnew => h.granted hsha hsub hinj hcareful ha hcard hnew
  refine ⟨fun i => ?_, fun key code hmem => ?_⟩
  · dsimp only
    by_cases hi : i = l.1
    · rw [hi, Function.update_self]
      exact hwithin
    · rw [Function.update_of_ne hi]
      exact h.devices i
  · rcases List.mem_append.1 hmem with hmem | hmem
    · -- the device that moved shows a code now
      obtain ⟨code', hcode', hpair⟩ := Option.map_eq_some_iff.1 (Option.mem_toList.1 hmem)
      obtain ⟨rfl, rfl⟩ := Prod.mk.inj hpair
      obtain ⟨card, hcard, hread, -⟩ := App.codeOnScreen_eq_some hcode'
      exact ⟨hwithin.identity, card.publicKey, hwithin.pending card hcard, hread⟩
    · exact h.shown key code hmem

/-- **Devices trust each other only.** Devices are launched that trust nobody else, and their users
are careful; cards of any keys arrive at any of them at any time, and the fingerprints of no two
keys agree. Then, however the steps interleave: every trusted card is one of the devices'; a card
that waits next to a code that a device of another key has shown is the card of that device; and
whenever a user starts a clipboard session, it is with one of the devices.

**Proof sketch.** Each code that was ever on a screen stands for the key of its device and another
one. Two devices with different keys that show one code have the same two keys, so each holds the
other's. -/
theorem trusts_itself [DecidableEq ι] (hsha : ∀ m, (sha256 m).length = 32) (hsub : own ⊆ known)
    (hinj : known.InjOn (keyFingerprint sha256)) {device : ι → App τ} {path : ι → String}
    (hlaunch : ∀ i, (device i).Launched N B J (path i))
    (hkey : ∀ i, (device i).identity.publicKey ∈ own)
    (hpeers : ∀ i, ∀ card ∈ (device i).peers, card.publicKey ∈ own) {g : Fleet ι τ}
    {labels : List (ι × UiStep τ)}
    (hcareful : Machine.Meets (step sha256) (Careful sha256 own known) ⟨device, []⟩ labels)
    (hrun : Machine.exec (step sha256) ⟨device, []⟩ labels = some g) (i : ι) :
    (∀ card ∈ (g.device i).peers, card.publicKey ∈ own) ∧
    (∀ key code, (key, code) ∈ g.shown → key ≠ (g.device i).identity.publicKey →
      (g.device i).codeOnScreen sha256 = some code →
      ∃ card, (g.device i).pendingPeerCard = some card ∧ card.publicKey = key ∧
        ∀ w, (g.device i).incomingCardDisplay sha256 w =
          (card.name, code, cardExpiryNote w card)) ∧
    ∀ w u, ∀ cmd ∈ ((g.device i).act w u).2, ∀ kind key, cmd.kind? = some kind →
      kind.peer = some key → key ∈ own := by
  have hstart : Inv sha256 own known ⟨device, []⟩ := by
    refine ⟨fun i => ⟨(hlaunch i).inv, hkey i, ?_, hpeers i⟩, fun key code hmem => ?_⟩
    · intro card hcard
      rw [(hlaunch i).pendingPeerCard] at hcard
      cases hcard
    · cases hmem
  have hinv : Inv sha256 own known g :=
    Machine.exec_invariant (fun _ _ _ h hc hstep => h.step hsha hsub hinj hc hstep) hstart
      hcareful hrun
  refine ⟨(hinv.devices i).peers, fun key code hshown hne hcode => ?_, ?_⟩
  · exact hinv.confirmed hsha hsub hinj hshown hne hcode
  · rintro w u cmd hcmd kind key hkind hpeer
    obtain ⟨card, hcard, rfl⟩ := App.peer_of_command hcmd hkind hpeer
    exact (hinv.devices i).peers card hcard

section Sample

open App

/-- Two devices as they are launched first, -/
def sampleDevice (i : Bool) : App Unit :=
  .init .lanOnly ⟨sampleKey (if i then 2 else 1)⟩ none sampleSuffix none []

/-- and a run: both are set up, one shows a PIN, and the other one joins. A stranger's card arrives
before the right one, and the two users confirm one after the other. -/
def sampleTrade : List (Bool × UiStep Unit) :=
  [(false, .action sampleWall (.beginGenerate ⟨sampleKey 1⟩)),
    (false, .action sampleWall (.saveName "desk" (some (sampleCard 1)) none)),
    (true, .action sampleWall (.beginGenerate ⟨sampleKey 2⟩)),
    (true, .action sampleWall (.saveName "phone" (some (sampleCard 2)) none)),
    (false, .action sampleWall (.openCardSetup none none)),
    (false, .action sampleWall .hostCardSetup),
    (true, .action sampleWall (.openCardSetup none none)),
    (true, .action sampleWall (.joinCardSetup (some "M3TDPWFA") .empty "")),
    (true, .event () (.peerCardReceived (sampleCard 1))),
    (false, .event () (.peerCardReceived (sampleCard 3))),
    (false, .event () (.peerCardReceived (sampleCard 2))),
    (false, .action sampleWall (.importReceivedCard none)),
    (true, .action sampleWall (.importReceivedCard none))]

/-- Whether a step can be seen to be careful. A card is imported only if it is of one of the own
devices, or if another device has shown the same pairing code. Cards arrive from known keys, the
identity stays one of the own ones, and no reset is being confirmed. -/
def checks (sha256 : Bytes → Bytes) (own known : List PublicKey) (f : Fleet Bool Unit)
    (l : Bool × UiStep Unit) : Bool :=
  let a := f.device l.1
  let trusts := match l.2.fired a with
    | some (_, .importPeerCard (some card) _) => decide (card.publicKey ∈ own)
    | some (_, .importReceivedCard _) => f.shown.any fun p =>
      decide (p.1 ≠ a.identity.publicKey ∧ a.codeOnScreen sha256 = some p.2)
    | _ => true
  let arrives := match l.2 with
    | .event _ (.peerCardReceived card) => decide (card.publicKey ∈ known)
    | _ => true
  trusts && arrives && ((a.uiStep l.2).all fun b => decide (b.identity.publicKey ∈ own)) &&
    !a.confirmResetIdentity

/-- A step that is found to be careful is.

**Proof sketch.** Each of the tests decides one clause of carefulness. -/
lemma careful_of_checks {sha256 : Bytes → Bytes} {own known : List PublicKey} {f : Fleet Bool Unit}
    {l : Bool × UiStep Unit} (h : checks sha256 own known f l = true) :
    f.Careful sha256 {k | k ∈ own} {k | k ∈ known} l := by
  simp only [checks, Bool.and_eq_true, Bool.not_eq_true'] at h
  obtain ⟨⟨⟨htrusts, harrives⟩, hidentity⟩, hconfirm⟩ := h
  refine ⟨?_, ?_, ?_, ?_, fresh_of_not_confirm hconfirm⟩
  · intro w card failure hfired
    rw [hfired] at htrusts
    exact Set.mem_ofPred.2 (of_decide_eq_true htrusts)
  · intro w failure hfired
    rw [hfired] at htrusts
    obtain ⟨⟨key, code⟩, hshown, hp⟩ := List.any_eq_true.1 htrusts
    obtain ⟨hne, hcode⟩ := of_decide_eq_true hp
    exact ⟨key, code, hshown, hne, hcode⟩
  · intro a ha
    rw [ha] at hidentity
    exact Set.mem_ofPred.2 (of_decide_eq_true hidentity)
  · intro now card hl
    rw [hl] at harrives
    exact Set.mem_ofPred.2 (of_decide_eq_true harrives)

/-- Each device of the sample was launched without a configuration file. -/
lemma sampleDevice_launched (i : Bool) :
    (sampleDevice i).Launched .ofJson .standard .pretty "config.json" := by
  refine ⟨⟨sampleKey (if i then 2 else 1)⟩, sampleSuffix, ⟨none, none, none⟩,
    Config.fresh .standard ⟨sampleKey (if i then 2 else 1)⟩ sampleSuffix, .lanOnly, sampleWall,
    none, by decide +kernel, rfl, ?_⟩
  simp only [new, Config.fresh, Identity.parseNsec_toNsec Bech32.standard_lawful]
  rfl

/-- The keys of the two devices and the one of the stranger have different fingerprints. -/
lemma sampleKeys_injOn : {k | k ∈ [sampleKey 1, sampleKey 2, sampleKey 3]}.InjOn
    (keyFingerprint sampleSha256) := by
  have hpairs : ∀ a ∈ [sampleKey 1, sampleKey 2, sampleKey 3],
      ∀ b ∈ [sampleKey 1, sampleKey 2, sampleKey 3],
        keyFingerprint sampleSha256 a = keyFingerprint sampleSha256 b → a = b := by
    decide +kernel
  exact fun a ha b hb hab => hpairs a ha b hb hab

/-- The two devices trust each other, and not the stranger.

**Proof sketch.** The two runs are computed, and each step is found to be careful. -/
theorem trusts_itself_sample : ∃ g : Fleet Bool Unit,
    Machine.exec (step sampleSha256) ⟨sampleDevice, []⟩ sampleTrade = some g ∧
    (g.device false).peers = [sampleCard 2] ∧ (g.device true).peers = [sampleCard 1] ∧
    ∀ i, ∀ card ∈ (g.device i).peers, card.publicKey ∈ [sampleKey 1, sampleKey 2] := by
  obtain ⟨g, hexec, hfalse, htrue⟩ : ∃ g : Fleet Bool Unit,
      Machine.exec (step sampleSha256) ⟨sampleDevice, []⟩ sampleTrade = some g ∧
      (g.device false).peers = [sampleCard 2] ∧ (g.device true).peers = [sampleCard 1] :=
    ⟨_, rfl, rfl, rfl⟩
  have hcareful : Machine.Meets (step sampleSha256)
      (Careful sampleSha256 {k | k ∈ [sampleKey 1, sampleKey 2]}
        {k | k ∈ [sampleKey 1, sampleKey 2, sampleKey 3]}) ⟨sampleDevice, []⟩ sampleTrade :=
    Machine.meets_of_check (fun _ _ h => careful_of_checks h) (by decide +kernel)
  have hsha : ∀ m, (sampleSha256 m).length = 32 := by
    intro m
    unfold sampleSha256
    split_ifs <;> rfl
  refine ⟨g, hexec, hfalse, htrue, fun i => ?_⟩
  refine (trusts_itself hsha ?_ sampleKeys_injOn sampleDevice_launched ?_ ?_ hcareful hexec i).1
  · intro k hk
    rw [Set.mem_ofPred] at hk ⊢
    exact List.mem_append_left [sampleKey 3] hk
  · intro i
    rw [Set.mem_ofPred]
    cases i <;> decide
  · intro i card hcard
    cases hcard

end Sample

end Fleet

end Duocb
