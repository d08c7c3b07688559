import Mathlib.Data.List.Forall2
import Duocb.App.Profile
import Duocb.Card.Bech32
import Duocb.Card.Minting
import Duocb.Config.Json

set_option relaxedAutoImplicit false
set_option autoImplicit false

/-!
# What is saved can be loaded

Loading checks the name, the suffix, the own card and the trusted cards against each other and
against the identity. Whatever happens to an application keeps all of these checks true, so nothing
it saves locks its user out, and the next launch has what was saved.

## Main definitions

* `Duocb.UiStep.Real` — the identities and cards a step brings in are generated, minted and parsed.
* `Duocb.Profile.Sound` — what loading checks.
* `Duocb.App.Reached` — the states of an application between its launch and its end.

## Main results

* `Duocb.App.Changed.sound` — every action keeps what loading checks.
* `Duocb.App.new_sound` — what is launched passes the checks.
* `Duocb.App.save_then_load` — what is saved is loaded again, and launches the same application.
-/

namespace Duocb

variable {τ : Type} {N : Nostr} {B : Bech32} {J : ConfigJson} {path : String}

/-! ## Real inputs -/

/-- The cards an action brings in are what minting and parsing give. The model hands these cards to
the action; here they are tied to the functions that the source calls. -/
def UserAction.Real (N : Nostr) (a : App τ) (w : Wall) : UserAction → Prop
  | .saveName name minted _ =>
    minted = (cardValidFrom N a.identity name a.deviceSuffix w.now).toOption
  | .copyCard minted _ _ | .openCardSetup minted _ => minted = a.minted N w
  | .importPeerCard pasted _ => ∃ text, pasted = (IdentityCard.parse N text).toOption
  | _ => True

/-- The cards a step brings in are minted and parsed. The runtime delivers cards it has parsed. -/
def UiStep.Real (N : Nostr) (a : App τ) : UiStep τ → Prop
  | .event _ (.peerCardReceived card) => card.Verified N
  | .event _ _ => True
  | .action w u => u.Real N a w
  | .key w k i => ∀ u, (a.handleGlobalKey k i).2 = some u → u.Real N a w

/-- A step's action is real when the step is. -/
lemma UiStep.Real.fired {a : App τ} {s : UiStep τ} (h : s.Real N a) {w : Wall} {u : UserAction}
    (hfired : s.fired a = some (w, u)) : u.Real N a w := by
  cases s with
  | event now e => cases hfired
  | action w' u' =>
    simp only [UiStep.fired, Option.ite_none_right_eq_some, Option.some.injEq, Prod.mk.injEq]
      at hfired
    obtain ⟨-, rfl, rfl⟩ := hfired
    exact h
  | key w' k i =>
    obtain ⟨u', hu, heq⟩ := Option.map_eq_some_iff.1 hfired
    obtain ⟨rfl, rfl⟩ := Prod.mk.inj heq
    exact h u' hu

/-! ## What loading checks -/

/-- What loading checks, of the values that are saved. It adds to a trusting profile what the
functions that make cards guarantee of them. -/
structure Profile.Sound (N : Nostr) (p : Profile) : Prop extends p.Trusting where
  suffix : isValidSuffix p.deviceSuffix = true
  named : (p.savedName = none ∧ p.selfCard = none) ∨
    ∃ name card, p.savedName = some name ∧ p.selfCard = some card ∧ validateName name = .ok () ∧
      card.Verified N ∧ card.publicKey = p.identity.publicKey ∧
      card.name = displayIdentity name p.deviceSuffix
  verified : ∀ card ∈ p.peers, card.Verified N

namespace App

/-- The profile passes the checks, and the card that waits is a card. -/
structure Sound (N : Nostr) (a : App τ) : Prop where
  profile : a.profile.Sound N
  pending : ∀ card, a.pendingPeerCard = some card → card.Verified N

/-- The application between its launch and its end. -/
def Reached (N : Nostr) (B : Bech32) (J : ConfigJson) (path : String) (a : App τ) : Prop :=
  ∃ (a₀ : App τ) (steps : List (UiStep τ)), Launched N B J path a₀ ∧
    Machine.exec uiStep a₀ steps = some a ∧ Machine.Meets uiStep (fun a s => s.Real N a) a₀ steps

/-- A card that was minted is one of the own key, under the name it was minted for. -/
lemma toOption_cardValidFrom (hN : N.Lawful) {identity : Identity} {name suffix : String} {now : ℕ}
    {card : IdentityCard}
    (h : (cardValidFrom N identity name suffix now).toOption = some card) :
    card.Verified N ∧ card.publicKey = identity.publicKey ∧
      card.name = displayIdentity name suffix ∧ validateName name = .ok () := by
  cases hcard : cardValidFrom N identity name suffix now with
  | error e => rw [hcard] at h; cases h
  | ok c =>
    rw [hcard] at h
    obtain rfl := Option.some.inj h
    obtain ⟨hverified, hkey, hname, -, -, hvalid, -⟩ := cardValidFrom_ok hN hcard
    exact ⟨hverified, hkey, hname, hvalid⟩

/-- Minting the own card again keeps the checks. -/
lemma Sound.renewed (hN : N.Lawful) {a : App τ} (ha : a.Sound N) {w : Wall} {card : IdentityCard}
    (h : some card = a.minted N w) : Profile.Sound N { a.profile with selfCard := some card } := by
  obtain ⟨name, hname, hminted⟩ := Option.bind_eq_some_iff.1 h.symm
  obtain ⟨hverified, hkey, hdisplay, hvalid⟩ := toOption_cardValidFrom hN hminted
  exact ⟨⟨ha.profile.count, ha.profile.distinct, ha.profile.others⟩, ha.profile.suffix,
    Or.inr ⟨name, card, hname, rfl, hvalid, hverified, hkey, hdisplay⟩, ha.profile.verified⟩

/-- Storing a card keeps the checks. -/
lemma Sound.stored {a : App τ} (ha : a.Sound N) {w : Wall} {card : IdentityCard}
    (hstorable : a.Storable w card) (hcard : card.Verified N) :
    Profile.Sound N { a.profile with peers := stored a.peers card } := by
  refine ⟨hstorable.trusting ha.profile.toTrusting, ha.profile.suffix, ha.profile.named, ?_⟩
  intro c hc
  rcases mem_stored hc with rfl | hc
  · exact hcard
  · exact ha.profile.verified c hc

/-- **Every action keeps what loading checks.**

**Proof sketch.** By cases on what the action changes. A card that is minted is one of the own key
and name, and a card that is stored was parsed. -/
theorem Changed.sound (hN : N.Lawful) {a : App τ} {w : Wall} {u : UserAction} {p : Profile}
    (h : Changed a w u p) (ha : a.Sound N) (hreal : u.Real N a w) : p.Sound N := by
  have htrusting := h.trusting ha.profile.toTrusting
  have hforget : ∀ identity, Profile.Sound N (a.profile.forget identity) := fun identity =>
    ⟨⟨Nat.zero_le _, List.nodup_nil, fun _ hc => absurd hc List.not_mem_nil⟩, ha.profile.suffix,
      Or.inl ⟨rfl, rfl⟩, fun _ hc => absurd hc List.not_mem_nil⟩
  cases h with
  | same => exact ha.profile
  | generated fresh => exact hforget fresh
  | imported identity => exact hforget identity
  | reset fresh => exact hforget fresh
  | @named name card failure valid =>
    obtain ⟨hverified, hkey, hdisplay, -⟩ := toOption_cardValidFrom hN (Eq.symm hreal)
    exact ⟨htrusting, ha.profile.suffix,
      Or.inr ⟨name, card, rfl, rfl, valid, hverified, hkey, hdisplay⟩, ha.profile.verified⟩
  | copied card failure copyFailure stale => exact ha.renewed hN hreal
  | opened card failure stale => exact ha.renewed hN hreal
  | @pasted card failure storable =>
    obtain ⟨text, htext⟩ := hreal
    cases hparse : IdentityCard.parse N text with
    | error e => rw [hparse] at htext; cases htext
    | ok c =>
      rw [hparse] at htext
      obtain rfl := Option.some.inj htext
      exact ha.stored storable (IdentityCard.verified_of_parse hparse)
  | confirmed failure pending storable => exact ha.stored storable (ha.pending _ pending)
  | removed key failure =>
    exact ⟨htrusting, ha.profile.suffix, ha.profile.named,
      fun c hc => ha.profile.verified c (List.mem_of_mem_filter hc)⟩

/-! ## Launches and runs -/

/-- What texts parse to are cards. -/
lemma verified_of_parsed {texts : List String} {cards : List IdentityCard}
    (h : List.Forall₂ (fun text card => IdentityCard.parse N text = .ok card) texts cards) :
    ∀ card ∈ cards, card.Verified N := by
  induction h with
  | nil => exact fun _ hcard => absurd hcard List.not_mem_nil
  | cons hcard _ ih => exact List.forall_mem_cons.2 ⟨IdentityCard.verified_of_parse hcard, ih⟩

/-- Cards parse back from their texts. -/
lemma parsed_of_verified (hN : N.Lawful) {cards : List IdentityCard}
    (h : ∀ card ∈ cards, card.Verified N) :
    List.Forall₂ (fun text card => IdentityCard.parse N text = .ok card)
      (cards.map IdentityCard.encode) cards := by
  induction cards with
  | nil => exact .nil
  | cons card cards ih =>
    rw [List.forall_mem_cons] at h
    exact .cons (IdentityCard.parse_encode hN h.1) (ih h.2)

/-- Renewing the own card keeps the checks. -/
lemma Sound.renew (hN : N.Lawful) {a : App τ} (ha : a.Sound N) (w : Wall)
    (failure : Option String) : (a.renewSelfCardIfStale w (a.minted N w) failure).Sound N := by
  have hheld := a.held_renewSelfCardIfStale w (a.minted N w) failure
  refine ⟨?_, fun card hcard => ha.pending card (hheld.1 ▸ hcard)⟩
  rcases a.renewSelfCardIfStale_cases w (a.minted N w) failure with h | ⟨card, hminted, -, h⟩
  · rw [h]
    exact ha.profile
  · rw [h, saveConfigureConfig_profile]
    exact ha.renewed hN hminted.symm

/-- The application that an accepted configuration launches, before its own card is renewed: it has
everything the configuration holds.

**Proof sketch.** Each text of the configuration is parsed to its card, the cards are different and
none is the own one, so none is dropped. -/
lemma new_eq {identity : Identity} {cfg : Config}
    (hparse : Identity.parseNsec B cfg.identitySecret = .ok identity)
    (h : cfg.toConfigFile.Accepted N identity) (channel : SignalChannel) (w : Wall)
    (failure : Option String) :
    ∃ (a : App τ) (selfCard : Option IdentityCard) (cards : List IdentityCard),
      List.Forall₂ (fun text card => IdentityCard.parse N text = .ok card) cfg.peers cards ∧
      ((cfg.myName = none ∧ selfCard = none) ∨ ∃ name encoded card, cfg.myName = some name ∧
        cfg.selfCard = some encoded ∧ selfCard = some card ∧
          IdentityCard.parse N encoded = .ok card ∧
        validateName name = .ok () ∧ card.publicKey = identity.publicKey ∧
        card.name = displayIdentity name cfg.deviceSuffix) ∧
      a.profile = ⟨identity, cfg.myName, cfg.deviceSuffix, selfCard, cards⟩ ∧
      a.pendingPeerCard = none ∧
      new N B channel cfg w failure = .ok (a.renewSelfCardIfStale w (a.minted N w) failure) := by
  obtain ⟨cards, hcards, hdistinct, hothers⟩ := h.peers
  have hpeers : (cards.filter fun card => card.publicKey ≠ identity.publicKey).take
      MAX_TRUSTED_PEERS = cards := by
    rw [List.filter_eq_self.2 fun card hcard => by simpa using hothers card hcard]
    exact List.take_of_length_le (hcards.length_eq ▸ h.count)
  have hnew : ∀ selfCard, (cfg.selfCard.bind fun card =>
        (IdentityCard.parse N card).toOption).filter (fun card =>
          card.publicKey = identity.publicKey ∧ (cfg.myName.filter fun name =>
            (validateName name).isOk).map (fun name => displayIdentity name cfg.deviceSuffix) =
              some card.name) = selfCard →
      (cfg.myName.filter fun name => (validateName name).isOk) = cfg.myName →
      new N B channel cfg w failure = .ok
        (let a : App τ := init channel identity cfg.myName cfg.deviceSuffix selfCard cards
         a.renewSelfCardIfStale w (a.minted N w) failure) := by
    rintro _ rfl hname
    simp only [new, hparse, hname, filterMap_parse hcards]
    rfl
  rcases h.named with ⟨hname, hself⟩ | ⟨name, encoded, card, hname, hself, hvalid, hcard, hkey,
    hdisplay⟩
  · refine ⟨init channel identity cfg.myName cfg.deviceSuffix none cards, none, cards, hcards,
      Or.inl ⟨hname, rfl⟩, ?_, rfl, hnew none ?_ ?_⟩
    · simp only [profile, init, hpeers]
    · rw [hself]
      rfl
    · rw [hname]
      rfl
  · have hkept : (cfg.myName.filter fun name => (validateName name).isOk) = cfg.myName := by
      rw [hname, Option.filter_some, hvalid]
      rfl
    refine ⟨init channel identity cfg.myName cfg.deviceSuffix (some card) cards, some card, cards,
      hcards, Or.inr ⟨name, encoded, card, hname, hself, rfl, hcard, hvalid, hkey, hdisplay⟩, ?_,
      rfl, hnew (some card) ?_ hkept⟩
    · simp only [profile, init, hpeers]
    · rw [hkept, hself, hname, Option.bind_some, hcard]
      simp [Except.toOption, hkey, hdisplay]

/-- **What is launched passes the checks.**

**Proof sketch.** The application that is launched has what the configuration holds, which passed
the checks; renewing the own card keeps them. -/
theorem new_sound (hN : N.Lawful) {identity : Identity} {cfg : Config}
    (hparse : Identity.parseNsec B cfg.identitySecret = .ok identity)
    (h : cfg.toConfigFile.Accepted N identity) {channel : SignalChannel} {w : Wall}
    {failure : Option String} {a : App τ} (ha : new N B channel cfg w failure = .ok a) :
    a.Sound N := by
  obtain ⟨a₀, selfCard, cards, hcards, hself, hprofile, hpending, hnew⟩ :=
    new_eq (τ := τ) hparse h channel w failure
  obtain rfl := Except.ok.inj (hnew.symm.trans ha)
  obtain ⟨cards', hcards', hdistinct, hothers⟩ := h.peers
  obtain rfl : cards' = cards := (filterMap_parse hcards').symm.trans (filterMap_parse hcards)
  refine Sound.renew hN ⟨?_, fun card hcard => ?_⟩ w failure
  · rw [hprofile]
    refine ⟨⟨hcards.length_eq ▸ h.count, hdistinct, hothers⟩, h.suffix, ?_, ?_⟩
    · rcases hself with ⟨hname, rfl⟩ | ⟨name, encoded, card, hname, -, rfl, hcard, hvalid, hkey,
        hdisplay⟩
      · exact Or.inl ⟨hname, rfl⟩
      · exact Or.inr ⟨name, card, hname, rfl, hvalid, IdentityCard.verified_of_parse hcard, hkey,
          hdisplay⟩
    · exact verified_of_parsed hcards
  · rw [hpending] at hcard
    cases hcard

/-- What an application saves passes the checks of a launch.

**Proof sketch.** The fields of the file are those of the application, and a card that verifies is
parsed from its own text. -/
lemma Sound.accepted (hN : N.Lawful) {a : App τ} (ha : a.Sound N) :
    (a.config B).toConfigFile.Accepted N a.identity where
  suffix := ha.profile.suffix
  named := by
    rcases ha.profile.named with ⟨hname, hself⟩ | ⟨name, card, hname, hself, hvalid, hcard, hkey,
      hdisplay⟩
    · exact Or.inl ⟨hname, congrArg (Option.map IdentityCard.encode) hself⟩
    · exact Or.inr ⟨name, card.encode, card, hname, congrArg (Option.map IdentityCard.encode) hself,
        hvalid, IdentityCard.parse_encode hN hcard, hkey, hdisplay⟩
  count := by
    simp only [config, List.length_map]
    exact ha.profile.count
  peers := ⟨a.peers, parsed_of_verified hN ha.profile.verified, ha.profile.distinct,
    ha.profile.others⟩

/-- The checks hold from a launch to the end of the application.

**Proof sketch.** A launch passes the checks, with a file and without one, and every step keeps
them. -/
lemma Reached.sound (hN : N.Lawful) (hB : B.Lawful) {a : App τ} (h : a.Reached N B J path) :
    a.Sound N := by
  obtain ⟨a₀, steps, ⟨identity, suffix, s, cfg, channel, w, failure, hsuffix, hload, hnew⟩, hrun,
    hreal⟩ := h
  have hstart : a₀.Sound N := by
    cases hfile : s.file with
    | none =>
      obtain rfl : Config.fresh B identity suffix = cfg := by
        simpa [Config.load, hfile] using hload
      refine new_sound hN (Identity.parseNsec_toNsec hB identity) ⟨hsuffix, Or.inl ⟨rfl, rfl⟩, ?_,
        ?_⟩ hnew
      · exact Nat.zero_le _
      · exact ⟨[], .nil, List.nodup_nil, fun _ hc => absurd hc List.not_mem_nil⟩
    | some content =>
      obtain ⟨identity', -, -, -, hparse, haccepted⟩ := (Config.load_eq_ok hfile).1 hload
      exact new_sound hN hparse haccepted hnew
  refine Machine.exec_invariant (C := fun a s => s.Real N a) (I := fun a => a.Sound N) ?_ hstart
    hreal hrun
  intro b step b' hb hstep_real hstep
  refine uiStep_keeps (I := fun a => a.Sound N) hstep hb ?_ ?_
  · rintro now e rfl
    refine ⟨?_, fun card hcard => ?_⟩
    · rw [applyEvent_profile]
      exact hb.profile
    · rcases b.applyEvent_pending now e with hheld | ⟨card', rfl, -, hpending⟩
      · exact hb.pending card (hheld.1 ▸ hcard)
      · rw [hpending] at hcard
        obtain rfl := Option.some.inj hcard
        exact hstep_real
  · intro w u hfired _
    refine ⟨(b.act_changed w u).sound hN hb (hstep_real.fired hfired), fun card hcard => ?_⟩
    rcases b.act_pending w u with hheld | hdropped
    · exact hb.pending card (hheld.1 ▸ hcard)
    · rw [hdropped.1] at hcard
      cases hcard

/-- What a step makes of an application is one between its launch and its end. -/
lemma Reached.next {a b : App τ} (h : a.Reached N B J path) {steps : List (UiStep τ)}
    (hrun : Machine.exec uiStep a steps = some b)
    (hreal : Machine.Meets uiStep (fun a s => s.Real N a) a steps) : b.Reached N B J path := by
  obtain ⟨a₀, before, hlaunch, hbefore, hmeets⟩ := h
  exact ⟨a₀, before ++ steps, hlaunch, Machine.exec_append_eq_some.2 ⟨a, hbefore, hrun⟩,
    hmeets.append hbefore hreal⟩

/-- **What is saved can be loaded, and launches the same application.** In every state between a
launch and the end of the application, after a save that succeeds, the next launch accepts what was
saved, and its identity, name, suffix and trusted cards are the ones that were saved, and so is its
own card, unless that is stale and minted again.

**Proof sketch.** A state of the application passes the checks of its own configuration, so the file
that was saved is accepted. What is launched from it has the same cards, and the own one is renewed
only close to its end. -/
theorem save_then_load (hN : N.Lawful) (hB : B.Lawful) (hJ : J.Lawful) {a : App τ}
    (h : a.Reached N B J path) {prior : Store} {labels : List SaveLabel} {s : Saving}
    (hsave : Machine.exec (Saving.step J path (a.config B)) (.start prior) labels = some s)
    (hsaved : s.phase = .saved) (generated : Config) :
    Config.load N B J path generated s.store = .ok (a.config B) ∧
    ∀ (channel : SignalChannel) (w : Wall) (failure : Option String), ∃ b : App τ,
      new N B channel (a.config B) w failure = .ok b ∧ b.identity = a.identity ∧
      b.savedName = a.savedName ∧ b.deviceSuffix = a.deviceSuffix ∧ b.peers = a.peers ∧
      (b.selfCard = a.selfCard ∨
        ∃ card, a.selfCard = some card ∧ w.remainingSecs card ≤ CARD_RENEW_BEFORE_SECS) := by
  have hsound := h.sound hN hB
  have haccepted := hsound.accepted (B := B) hN
  have hparse := Identity.parseNsec_toNsec hB a.identity
  obtain ⟨hcred, content, hjson, hfile⟩ := (Saving.reachable hsave).2 hsaved
  refine ⟨(Config.load_eq_ok hfile).2
    ⟨a.identity, hJ _ _ hjson, rfl, hcred, hparse, haccepted⟩, fun channel w failure => ?_⟩
  obtain ⟨b, selfCard, cards, hcards, hself, hprofile, -, hnew⟩ :=
    new_eq (τ := τ) hparse haccepted channel w failure
  obtain rfl : cards = a.peers := (filterMap_parse hcards).symm.trans
    (filterMap_parse (parsed_of_verified hN hsound.profile.verified))
  -- the own card that is launched is the one that was saved
  have hcard : selfCard = a.selfCard := by
    rcases hsound.profile.named with ⟨hname, hnone⟩ | ⟨name, card, hname, hsome, -, hverified, -, -⟩
    · rcases hself with ⟨-, rfl⟩ | ⟨name, -, -, hname', -⟩
      · exact hnone.symm
      · exact absurd (hname.symm.trans hname') (by simp)
    · rcases hself with ⟨hname', -⟩ | ⟨name', encoded, card', -, hencoded, rfl, hparsed, -⟩
      · exact absurd (hname.symm.trans hname') (by simp)
      · have hencode : encoded = card.encode := by
          have hsaved : (a.config B).selfCard = some card.encode :=
            congrArg (Option.map IdentityCard.encode) hsome
          exact Option.some.inj (hencoded.symm.trans hsaved)
        rw [hencode, IdentityCard.parse_encode hN hverified] at hparsed
        rw [← Except.ok.inj hparsed]
        exact hsome.symm
  subst hcard
  refine ⟨_, hnew, ?_⟩
  have hfields : b.identity = a.identity ∧ b.savedName = a.savedName ∧
      b.deviceSuffix = a.deviceSuffix ∧ b.selfCard = a.selfCard ∧ b.peers = a.peers := by
    simpa [profile, config] using hprofile
  obtain ⟨hid, hname, hsuffix, hbself, hbpeers⟩ := hfields
  rcases b.renewSelfCardIfStale_cases w (b.minted N w) failure with h | ⟨card, -, hstale, h⟩
  · rw [h]
    exact ⟨hid, hname, hsuffix, hbpeers, Or.inl hbself⟩
  · obtain ⟨old, hold, hremaining⟩ := hstale.stale
    have hrenewed : ∀ c : App τ, c = saveConfigureConfig { b with selfCard := some card } failure →
        c.identity = b.identity ∧ c.savedName = b.savedName ∧ c.deviceSuffix = b.deviceSuffix ∧
          c.peers = b.peers := by
      rintro c rfl
      cases failure <;> exact ⟨rfl, rfl, rfl, rfl⟩
    obtain ⟨hid', hname', hsuffix', hpeers'⟩ := hrenewed _ h
    exact ⟨hid'.trans hid, hname'.trans hname, hsuffix'.trans hsuffix, hpeers'.trans hbpeers,
      Or.inr ⟨old, hbself ▸ hold, hremaining⟩⟩

section Sample

/-- Two keys, -/
def sampleKey (i : UInt8) : PublicKey := .filled i

/-- a suffix and a clock, -/
def sampleSuffix : String := "a7B2c3D4"

/-- The clock of the sample. -/
def sampleWall : Wall := ⟨5, fun _ => ""⟩

/-- the payloads of two cards, -/
def samplePayload (i : UInt8) : CardContent :=
  ⟨IDENTITY_CARD_VERSION, displayIdentity (if i = 1 then "desk" else "phone") sampleSuffix, 5,
    5 + CARD_TTL_SECS⟩

/-- and the cards themselves. -/
def sampleCard (i : UInt8) : IdentityCard := Nostr.signedCard (sampleKey i) (samplePayload i)

/-- The cards are read from their texts. -/
lemma samplePaste : IdentityCard.parse .ofJson (sampleCard 2).encode = .ok (sampleCard 2) :=
  Nostr.parse_ofJson _ (by decide +kernel)

/-- The device with the first card trusts the second one. -/
def sampleApp : App Unit :=
  .init .lanOnly ⟨sampleKey 1⟩ (some "desk") sampleSuffix (some (sampleCard 1)) [sampleCard 2]

/-- What a first launch with the first key starts with, -/
def sampleLaunch : App Unit := .init .lanOnly ⟨sampleKey 1⟩ none sampleSuffix none []

/-- The device was launched without a configuration file. -/
lemma sampleLaunch_launched (J : ConfigJson) (path : String) :
    sampleLaunch.Launched .ofJson .standard J path := by
  refine ⟨⟨sampleKey 1⟩, sampleSuffix, ⟨none, none, none⟩,
    Config.fresh .standard ⟨sampleKey 1⟩ sampleSuffix, .lanOnly, sampleWall, none,
    by decide +kernel, rfl, ?_⟩
  simp only [new, Config.fresh, Identity.parseNsec_toNsec Bech32.standard_lawful]
  rfl

/-- From there, the user names the device and pastes a card.

**Proof sketch.** The steps are computed. The card of the name is the one that minting gives, and
the one that is pasted is parsed from its own text. -/
lemma sampleApp_reached (J : ConfigJson) (path : String) :
    sampleApp.Reached .ofJson .standard J path := by
  refine ⟨sampleLaunch, [.action sampleWall (.beginGenerate ⟨sampleKey 1⟩),
      .action sampleWall (.saveName "desk" (some (sampleCard 1)) none),
      .action sampleWall (.importPeerCard (some (sampleCard 2)) none)],
    sampleLaunch_launched J path, ?_, ?_⟩
  · rfl
  · refine ⟨trivial, fun b hb => ⟨?_, fun c hc => ⟨⟨(sampleCard 2).encode, ?_⟩,
      fun _ _ => trivial⟩⟩⟩
    · obtain rfl := Option.some.inj hb
      change some (sampleCard 1) =
        (cardValidFrom .ofJson ⟨sampleKey 1⟩ "desk" sampleSuffix 5).toOption
      rw [cardValidFrom_ofJson (by decide) (by decide) (by decide)]
      rfl
    · rw [samplePaste]
      rfl

/-- What its configuration file holds. -/
def sampleText : String := (sampleApp.config .standard).text

/-- The device is saved, and the next launch has it again.

**Proof sketch.** The save is run to its end, and the theorem is applied to what it leaves. -/
theorem save_then_load_sample : ∃ s : Saving,
    s.phase = .saved ∧ s.store.file = some sampleText ∧
    Config.load .ofJson .standard .pretty "config.json"
      (.fresh .standard ⟨sampleKey 3⟩ sampleSuffix) s.store = .ok (sampleApp.config .standard) ∧
    ∃ b : App Unit,
      new .ofJson .standard .lanOnly (sampleApp.config .standard) sampleWall none = .ok b ∧
      b.identity = ⟨sampleKey 1⟩ ∧ b.peers = [sampleCard 2] := by
  let s : Saving :=
    ⟨⟨some (Bech32.standard.toNsec ⟨sampleKey 1⟩), some sampleText, none⟩, .saved⟩
  have hjson := @ConfigJson.toJson_pretty (sampleApp.config .standard).toConfigFile (by decide)
  have hsave : Machine.exec (Saving.step .pretty "config.json" (sampleApp.config .standard))
      (.start ⟨none, none, none⟩) (Saving.undisturbed sampleText) = some s :=
    Saving.completes hjson _
  obtain ⟨hload, hnew⟩ := save_then_load Nostr.ofJson_mints.toLawful Bech32.standard_lawful
    ConfigJson.pretty_lawful (sampleApp_reached .pretty "config.json") hsave rfl
    (.fresh .standard ⟨sampleKey 3⟩ sampleSuffix)
  obtain ⟨b, hb, hid, -, -, hpeers, -⟩ := hnew .lanOnly sampleWall none
  exact ⟨s, rfl, rfl, hload, b, hb, hid, hpeers⟩

end Sample

end App

end Duocb
