import Duocb.Config.RoundTrip

set_option relaxedAutoImplicit false
set_option autoImplicit false

/-!
# Trust is granted by the user

A card gets on the trusted list in two ways only: the user pastes it, or confirms it on the screen
that shows the pairing code of that card and the own key. Events of the runtime may put up that
screen, replace the card on it, or take it down at any time.

## Main definitions

* `Duocb.App.incomingCardDisplay` — what the confirmation screen shows.
* `Duocb.App.Granted` — the user grants trust to a card by a step.
* `Duocb.UiStep.Fresh` — an identity that is generated has a key of its own.

## Main results

* `Duocb.App.trust_granted_by_user` — every card on the trusted list was granted trust, and the list
  stays within bounds and without the own key.
-/

namespace Duocb

variable {τ : Type} {N : Nostr} {B : Bech32} {J : ConfigJson} {path : String}

/-- The expiry state of a card, as a list row and the confirmation screen show it. It gives the
date, warns of a card that is not valid yet or has expired, and counts the days once the card is to
be renewed. -/
def cardExpiryNote (w : Wall) (card : IdentityCard) : String :=
  let date := w.localDate card.notAfter
  let remaining := w.remainingSecs card
  if card.isNotYetValidAt w.now then "NOT YET VALID — check clock"
  else if remaining = 0 then "EXPIRED " ++ date
  else if remaining > CARD_RENEW_BEFORE_SECS then "expires " ++ date
  else match remaining / (24 * 60 * 60) with
    | 0 => "expires " ++ date ++ " (today)"
    | 1 => "expires " ++ date ++ " (1 day)"
    | days => "expires " ++ date ++ s!" ({days} days)"

/-- An identity that is generated does not have the key of the card that waits. -/
def UiStep.Fresh (a : App τ) (s : UiStep τ) : Prop :=
  ∀ w fresh failure, s.fired a = some (w, .resetIdentity fresh failure) →
    ∀ card, a.pendingPeerCard = some card → card.publicKey ≠ fresh.publicKey

namespace App

/-- What the confirmation screen shows for the card that waits: its name, the pairing code, and its
expiry. -/
def incomingCardDisplay (sha256 : Bytes → Bytes) (a : App τ) (w : Wall) :
    String × String × String :=
  match a.pendingPeerCard with
  | some card =>
    (card.name, (pairingCode sha256 a.identity.publicKey card.publicKey).toOption.getD "",
      cardExpiryNote w card)
  | none => ("", "", "")

/-- The user grants trust to a card by a step: the card is pasted on the hub, or it is the card that
waits, and the confirmation screen shows the pairing code of its key and the own one. Its window is
open. -/
def Granted (sha256 : Bytes → Bytes) (a : App τ) (s : UiStep τ) (card : IdentityCard) : Prop :=
  ∃ (w : Wall) (failure : Option String), w.isExpired card = false ∧
    ((s.fired a = some (w, .importPeerCard (some card) failure) ∧ a.screen = .home ∧
        a.configureStep = .ready) ∨
      (s.fired a = some (w, .importReceivedCard failure) ∧ a.screen = .cardConfirm ∧
        a.pendingPeerCard = some card ∧
        ∃ code, pairingCode sha256 a.identity.publicKey card.publicKey = .ok code ∧
          ∀ w', a.incomingCardDisplay sha256 w' = (card.name, code, cardExpiryNote w' card)))

/-- The trusted list is within bounds, and the confirmation screen asks about another device. -/
structure TrustInv (a : App τ) : Prop where
  trusting : a.profile.Trusting
  confirm : a.screen = .cardConfirm →
    ∃ card, a.pendingPeerCard = some card ∧ card.publicKey ≠ a.identity.publicKey

/-- An action that is offered changes the identity on the home screen, or by a reset. -/
lemma Changed.identity {a : App τ} {w : Wall} {u : UserAction} {p : Profile} (h : Changed a w u p)
    (hu : a.enabled u = true) : p.identity = a.identity ∨ a.screen = .home ∨
      ∃ fresh failure, u = .resetIdentity fresh failure ∧ p.identity = fresh := by
  cases h with
  | generated fresh =>
    have hu' : a.screen = .home ∧ a.configureStep = .setupChoice := by simpa [enabled] using hu
    exact Or.inr (Or.inl hu'.1)
  | imported identity failure =>
    have hu' : a.screen = .home ∧ a.configureStep = .setupImport := by simpa [enabled] using hu
    exact Or.inr (Or.inl hu'.1)
  | reset fresh failure => exact Or.inr (Or.inr ⟨fresh, failure, rfl, rfl⟩)
  | _ => exact Or.inl rfl

/-- A launch has a trusted list within bounds, and no confirmation to make.

**Proof sketch.** A configuration that loads has cards of different keys, none of them the own one,
and no more than the limit; the application that is launched with it trusts these, and is on its
first screen. -/
lemma Launched.inv {a : App τ} (h : a.Launched N B J path) : a.TrustInv := by
  obtain ⟨identity, suffix, s, cfg, channel, w, failure, -, hload, hnew⟩ := h
  obtain ⟨own, hparse, hid, hpeers, hscreen⟩ := new_ok hnew
  -- the texts of the configuration are those of cards with different keys
  have hdistinct : ((cfg.peers.filterMap fun card => (IdentityCard.parse N card).toOption).map
      IdentityCard.publicKey).Nodup := by
    cases hfile : s.file with
    | none =>
      obtain rfl : Config.fresh B identity suffix = cfg := by
        simpa [Config.load, hfile] using hload
      exact List.nodup_nil
    | some content =>
      obtain ⟨_, -, -, -, -, haccepted⟩ := (Config.load_eq_ok hfile).1 hload
      obtain ⟨cards, hcards, hnodup, -⟩ := haccepted.peers
      rw [filterMap_parse hcards]
      exact hnodup
  refine ⟨⟨?_, ?_, ?_⟩, fun h => ?_⟩
  · change a.peers.length ≤ _
    rw [hpeers]
    exact List.length_take_le _ _
  · change (a.peers.map IdentityCard.publicKey).Nodup
    rw [hpeers]
    exact hdistinct.sublist (((List.take_sublist _ _).trans List.filter_sublist).map _)
  · intro card hcard
    change card ∈ a.peers at hcard
    rw [hpeers] at hcard
    change card.publicKey ≠ a.identity.publicKey
    rw [hid]
    simpa using (List.mem_filter.1 (List.mem_of_mem_take hcard)).2
  · rw [hscreen] at h
    cases h

/-- An event keeps the trusted list, and puts up the confirmation of another device's card only. -/
lemma TrustInv.applyEvent {a : App τ} (h : a.TrustInv) (now : τ) (e : NetEvent) :
    (a.applyEvent now e).TrustInv := by
  have hprofile := a.applyEvent_profile now e
  have hid : (a.applyEvent now e).identity = a.identity := congrArg Profile.identity hprofile
  refine ⟨hprofile ▸ h.trusting, fun hscreen => ?_⟩
  rcases a.applyEvent_pending now e with ⟨hpending, hheld⟩ | ⟨card, -, hother, hpending⟩
  · obtain ⟨card, hcard, hother⟩ := h.confirm (hheld hscreen)
    exact ⟨card, hpending.trans hcard, hid ▸ hother⟩
  · exact ⟨card, hpending, hid ▸ hother⟩

/-- An action that is offered keeps the trusted list within bounds, and leaves no confirmation up
for a card that is the own one now.

**Proof sketch.** The profile is kept trusting by the list of the changes. While the confirmation is
on the screen its card waits, and the identity is the same, unless it was reset to a fresh one. -/
lemma TrustInv.act {a : App τ} (h : a.TrustInv) {w : Wall} {u : UserAction}
    (hu : a.enabled u = true)
    (hfresh : ∀ fresh failure, u = .resetIdentity fresh failure →
      ∀ card, a.pendingPeerCard = some card → card.publicKey ≠ fresh.publicKey) :
    (a.act w u).1.TrustInv := by
  have hchanged := a.act_changed w u
  refine ⟨hchanged.trusting h.trusting, fun hscreen => ?_⟩
  rcases a.act_pending w u with ⟨hpending, hheld⟩ | ⟨-, hdropped⟩
  · obtain ⟨card, hcard, hother⟩ := h.confirm (hheld hscreen)
    refine ⟨card, hpending.trans hcard, ?_⟩
    change card.publicKey ≠ (a.act w u).1.profile.identity.publicKey
    rcases hchanged.identity hu with hsame | hhome | ⟨fresh, failure, rfl, hreset⟩
    · rw [hsame]
      exact hother
    · rw [hhome] at hheld
      cases hheld hscreen
    · rw [hreset]
      exact hfresh fresh failure rfl card hcard
  · exact absurd hscreen hdropped

/-- Without the question up no identity is reset. -/
lemma fresh_of_not_confirm {a : App τ} {s : UiStep τ} (h : a.confirmResetIdentity = false) :
    s.Fresh a := by
  intro w fresh failure hfired
  have hu := fired_enabled hfired
  simp [enabled, h] at hu

/-- A step of the user interface keeps the trusted list within bounds. -/
lemma TrustInv.uiStep {a b : App τ} {s : UiStep τ} (h : a.TrustInv) (hfresh : s.Fresh a)
    (hstep : a.uiStep s = some b) : b.TrustInv := by
  refine uiStep_keeps (I := TrustInv) hstep h (fun now e _ => h.applyEvent now e) ?_
  intro w u hfired hu
  refine h.act hu ?_
  rintro fresh failure rfl
  exact hfresh w fresh failure hfired

/-- A card that is new on the trusted list was granted trust by the step that put it there.

**Proof sketch.** An event puts no card on the list. An action that does is one of the two imports;
it is offered on its screen only, where the card and its code are displayed. -/
lemma TrustInv.granted {a b : App τ} {s : UiStep τ} (h : a.TrustInv) (sha256 : Bytes → Bytes)
    (hstep : a.uiStep s = some b) {card : IdentityCard} (hcard : card ∈ b.peers)
    (hnew : card ∉ a.peers) : a.Granted sha256 s card := by
  rcases uiStep_cases hstep with ⟨now, e, rfl, rfl⟩ | ⟨w, u, hfired, hu, rfl⟩ | rfl
  · have hpeers : (a.applyEvent now e).peers = a.peers :=
      congrArg Profile.peers (a.applyEvent_profile now e)
    exact absurd (hpeers ▸ hcard) hnew
  · obtain ⟨hstorable, haction⟩ := (a.act_changed w u).mem_peers hcard hnew
    rcases haction with ⟨failure, rfl⟩ | ⟨failure, rfl, hpending⟩
    · have hu' : a.screen = .home ∧ a.configureStep = .ready := by simpa [enabled] using hu
      exact ⟨w, failure, hstorable.current, Or.inl ⟨hfired, hu'⟩⟩
    · have hscreen : a.screen = .cardConfirm := by simpa [enabled] using hu
      obtain ⟨code, hcode⟩ := pairingCode_ok sha256 hstorable.other.symm
      refine ⟨w, failure, hstorable.current,
        Or.inr ⟨hfired, hscreen, hpending, code, hcode, fun w' => ?_⟩⟩
      simp only [incomingCardDisplay, hpending, hcode]
      rfl
  · exact absurd hcard hnew

/-- **Trust is granted by the user.** From a launch on, whatever happens, the trusted list stays
within bounds, without two cards of a key and without the own key, and the confirmation screen asks
about another device's card. A card gets on the list by a step that grants it trust, and every card
that was not on it at the launch got there so.

**Proof sketch.** The bounds are an invariant of the steps. A card that a step adds is the one that
the user pasted or confirmed. For a card of the last state that was not there at the launch, some
step of the run added it. -/
theorem trust_granted_by_user (sha256 : Bytes → Bytes) {a₀ a : App τ} {steps : List (UiStep τ)}
    (hlaunch : a₀.Launched N B J path) (hrun : Machine.exec uiStep a₀ steps = some a)
    (hfresh : Machine.Meets uiStep UiStep.Fresh a₀ steps) :
    (a.peers.length ≤ MAX_TRUSTED_PEERS ∧ (a.peers.map IdentityCard.publicKey).Nodup ∧
      ∀ card ∈ a.peers, card.publicKey ≠ a.identity.publicKey) ∧
    (a.screen = .cardConfirm →
      ∃ card, a.pendingPeerCard = some card ∧ card.publicKey ≠ a.identity.publicKey) ∧
    (∀ s b, a.uiStep s = some b → ∀ card ∈ b.peers, card ∉ a.peers → a.Granted sha256 s card) ∧
    ∀ card ∈ a.peers, card ∈ a₀.peers ∨ ∃ before s after b, steps = before ++ s :: after ∧
      Machine.exec uiStep a₀ before = some b ∧ b.Granted sha256 s card := by
  have hkeep : ∀ (c : App τ) (s : UiStep τ) (d : App τ), c.TrustInv → s.Fresh c →
      c.uiStep s = some d → d.TrustInv := fun _ _ _ hc hs hstep => hc.uiStep hs hstep
  have hinv := Machine.exec_invariant hkeep hlaunch.inv hfresh hrun
  refine ⟨⟨hinv.trusting.count, hinv.trusting.distinct, hinv.trusting.others⟩, hinv.confirm,
    fun s b hstep card hcard hnew => hinv.granted sha256 hstep hcard hnew, fun card hcard => ?_⟩
  by_cases hold : card ∈ a₀.peers
  · exact Or.inl hold
  · obtain ⟨before, s, after, b, c, rfl, hbefore, hstep, hout, hin⟩ :=
      Machine.exists_step_of_exec (P := fun c : App τ => card ∈ c.peers) hold hcard hrun
    have hb := Machine.exec_invariant hkeep hlaunch.inv (hfresh.of_append hbefore).1 hbefore
    exact Or.inr ⟨before, s, after, b, rfl, hbefore, hb.granted sha256 hstep hin hout⟩

section Sample

/-- What the surroundings hold while a shortcut is used, -/
def sampleInputs : Inputs :=
  ⟨⟨sampleKey 3⟩, none, "", none, none, none, .empty, "", .ok "", none, none⟩

/-- and a run: the user names the device and shows a PIN, a card arrives, and the user confirms it.
-/
def sampleSteps : List (UiStep Unit) :=
  [.action sampleWall (.beginGenerate ⟨sampleKey 1⟩),
    .action sampleWall (.saveName "desk" (some (sampleCard 1)) none),
    .action sampleWall (.openCardSetup none none),
    .action sampleWall .hostCardSetup,
    .event () (.peerCardReceived (sampleCard 2)),
    .key sampleWall ⟨"i", true, false, false⟩ sampleInputs]

/-- The card on the list at its end was granted trust.

**Proof sketch.** The run is computed. The card on the list was not there at the launch. -/
theorem trust_granted_by_user_sample : ∃ a : App Unit,
    Machine.exec uiStep sampleLaunch sampleSteps = some a ∧ a.peers = [sampleCard 2] ∧
    ∃ before s after b, sampleSteps = before ++ s :: after ∧
      Machine.exec uiStep sampleLaunch before = some b ∧ b.Granted id s (sampleCard 2) := by
  obtain ⟨a, hrun, hpeers⟩ : ∃ a : App Unit,
      Machine.exec uiStep sampleLaunch sampleSteps = some a ∧ a.peers = [sampleCard 2] :=
    ⟨_, rfl, rfl⟩
  have hfresh : Machine.Meets uiStep UiStep.Fresh sampleLaunch sampleSteps :=
    Machine.meets_of_check (c := fun b _ => !b.confirmResetIdentity)
      (fun b s hb => fresh_of_not_confirm (by simpa using hb)) (by decide +kernel)
  have hmem : sampleCard 2 ∈ a.peers := hpeers ▸ List.mem_singleton_self _
  obtain ⟨-, -, -, hgranted⟩ := trust_granted_by_user id
    (sampleLaunch_launched .pretty "config.json") hrun hfresh
  exact ⟨a, hrun, hpeers, (hgranted _ hmem).resolve_left List.not_mem_nil⟩

end Sample

end App

end Duocb
