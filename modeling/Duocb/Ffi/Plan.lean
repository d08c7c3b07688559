import Duocb.Ffi
import Duocb.Pin.Canonical

set_option relaxedAutoImplicit false
set_option autoImplicit false

/-!
# Which configurations are planned

The library accepts a configuration that is complete for its role and has no field of another one,
and what it plans then is what the runtime relies on: a peer from the list of the identity, other
than the identity itself, the half that the two keys draw, and the stop command of that half.

The PIN of a card setup is the exception. A text that passes for a PIN by the low bytes of its
characters is accepted, and the runtime is started with it.

## Main definitions

* `Duocb.FfiConfig.Valid` — a configuration is complete for its role, and has no other fields.
* `Duocb.StartPlan.Sound` — what the runtime relies on in a plan.

## Main results

* `Duocb.readPeers_eq_ok` — exactly which lists of cards are accepted.
* `Duocb.buildStartPlan_valid_iff` — exactly the valid configurations are accepted, and their plans
  are sound, unless the PIN masquerades.
* `Duocb.buildStartPlan_masquerade` — a plan with a PIN that is none.
-/

namespace Duocb

/-! ## What is valid -/

/-- The channel of a configuration. -/
def FfiConfig.signalChannel (cfg : FfiConfig) : SignalChannel := cfg.channel.getD .lanThenNostr

/-- The relays of a configuration: its own, or the default ones. -/
def FfiConfig.signalRelays (cfg : FfiConfig) : List String :=
  if cfg.relays = [] then defaultRelays else cfg.relays

/-- The address in a field, if it holds one. -/
def typedIp (ip : Option String) : Option IpAddr :=
  (((ip.map trim).filter fun s => s ≠ "").bind Ipv4Addr.parse).map Ipv4Addr.toIpAddr

/-- The fields of a card setup that types a PIN: a text that is normalized to one, and an IPv4
address or nothing, an address only on a channel that uses the local network. -/
structure FfiConfig.ValidJoin (cfg : FfiConfig) : Prop where
  pin : ∃ text, cfg.pin = some text ∧ (normalizePin text).isSome
  ip : ∀ text, cfg.ip = some text → trim text ≠ "" →
    isIpv4 (trim text) = true ∧ cfg.signalChannel.lan = true

/-- The fields of a session with a peer: the own key, which signed the own card, cards of different
peers, and the key of one of them in either form. -/
structure FfiConfig.ValidConnect (N : Nostr) (B : Bech32) (cfg : FfiConfig)
    (selfCard : IdentityCard) :
    Prop where
  identity : ∃ text identity, cfg.identitySecret = some text ∧
    Identity.parseNsec B text = .ok identity ∧ selfCard.publicKey = identity.publicKey
  peers : ∃ cards,
    List.Forall₂ (fun text card => IdentityCard.parse N text = .ok card) cfg.peers cards ∧
    cards.length ≤ MAX_TRUSTED_PEERS ∧ (cards.map IdentityCard.publicKey).Nodup ∧
    (∀ card ∈ cards, card.publicKey ≠ selfCard.publicKey) ∧
    ∃ text card, cfg.peerPublicKey = some text ∧ card ∈ cards ∧
      (trim text = card.publicKey.toHex ∨ trim text = B.npub card.publicKey)

/-- A configuration is complete for its role, and has no field of another role. It lists what the
documentation of the interface asks for, without the order in which the code checks it. -/
structure FfiConfig.Valid (N : Nostr) (B : Bech32) (cfg : FfiConfig) : Prop where
  irohSecret : ∃ text bytes, cfg.irohSecret = some text ∧
    hexDecode (trim text).toList = some bytes ∧ bytes.length = 32
  selfCard : ∃ text selfCard, cfg.selfCard = some text ∧ IdentityCard.parse N text = .ok selfCard ∧
    (cfg.role = .connect → cfg.ValidConnect N B selfCard)
  cardSetup : cfg.role ≠ .connect →
    cfg.identitySecret = none ∧ cfg.peers = [] ∧ cfg.peerPublicKey = none
  typed : cfg.role ≠ .cardJoin → cfg.pin = none ∧ cfg.ip = none
  join : cfg.role = .cardJoin → cfg.ValidJoin

/-- The peer of a session is in the list of the identity, and is another device. -/
def KeyIdentity.Trusts (identity : KeyIdentity) (peer : PublicKey) : Prop :=
  (∃ card ∈ identity.peers, card.publicKey = peer) ∧ peer ≠ identity.identity.publicKey

/-- What the runtime relies on in a plan. A session with a peer is one that it trusts, on the side
that the two keys give it. A join has a canonical PIN. The command that ends the session is that of
its side. -/
def StartPlan.Sound (plan : StartPlan) : Prop :=
  match plan.sessionCmd with
  | .startServer (.key identity peer _) => identity.Trusts peer ∧
      sessionRole identity.identity.publicKey peer = .host ∧ plan.disconnectCmd = .stopServer
  | .startServer (.cardSetup _ _ _) => plan.disconnectCmd = .stopServer
  | .connect (.key identity peer _) => identity.Trusts peer ∧
      sessionRole identity.identity.publicKey peer = .dial ∧ plan.disconnectCmd = .disconnect
  | .connect (.cardSetup canonicalPin _ _ _ _) =>
      CanonicalPin canonicalPin ∧ plan.disconnectCmd = .disconnect
  | _ => False

/-! ## The checks -/

section Checks

variable {N : Nostr} {B : Bech32} {cfg : FfiConfig}

/-- The transport key is 32 bytes in hexadecimal. -/
lemma parseIrohSecret_eq_ok {value : Option String} {bytes : Bytes} :
    parseIrohSecret value = .ok bytes ↔ ∃ text, value = some text ∧
      hexDecode (trim text).toList = some bytes ∧ bytes.length = 32 := by
  simp only [parseIrohSecret, bind_eq_ok, okOr_eq_ok, Option.filter_eq_some_iff, decide_eq_true_eq]

/-- **Exactly which lists of cards are accepted.**

**Proof sketch.** By induction on the texts, with the keys that were seen so far. -/
lemma readPeers_eq_ok {own : PublicKey} {texts : List String} {cards : List IdentityCard}
    {seen : List PublicKey} : readPeers N own texts seen = .ok cards ↔
      List.Forall₂ (fun text card => IdentityCard.parse N text = .ok card) texts cards ∧
      (∀ card ∈ cards, card.publicKey ≠ own) ∧ (∀ card ∈ cards, card.publicKey ∉ seen) ∧
      (cards.map IdentityCard.publicKey).Nodup := by
  refine ⟨fun h => ?_,
    fun ⟨hparse, hown, hseen, hdistinct⟩ => readPeers_ok hparse hown hseen hdistinct⟩
  induction texts generalizing cards seen with
  | nil =>
    obtain rfl := Except.ok.inj h
    exact ⟨.nil, by simp, by simp, .nil⟩
  | cons text texts ih =>
    simp only [readPeers, bind_eq_ok, labelled_eq_ok, refuseIf_eq_ok] at h
    obtain ⟨card, hcard, -, hown, -, hseen, rest, hrest, h⟩ := h
    obtain rfl := Except.ok.inj h
    obtain ⟨hparse, howns, hseens, hdistinct⟩ := ih hrest
    refine ⟨.cons hcard hparse, ?_, ?_, ?_⟩
    · rintro c hc
      rcases List.mem_cons.1 hc with rfl | hc
      · exact hown
      · exact howns c hc
    · rintro c hc
      rcases List.mem_cons.1 hc with rfl | hc
      · exact hseen
      · exact fun h => hseens c hc (List.mem_cons_of_mem _ h)
    · rw [List.map_cons, List.nodup_cons]
      refine ⟨fun hmem => ?_, hdistinct⟩
      obtain ⟨c, hc, heq⟩ := List.mem_map.1 hmem
      exact hseens c hc (heq ▸ List.mem_cons_self)

/-- Which typed addresses are accepted, and what is read from them.

**Proof sketch.** By what the entry holds: none, blanks, or a text, which is accepted on a channel
with a local network if it is an address. -/
lemma readTargetIp_eq_ok {ip : Option String} {channel : SignalChannel} {target : Option IpAddr} :
    readTargetIp ip channel = .ok target ↔ (∀ text, ip = some text → trim text ≠ "" →
      isIpv4 (trim text) = true ∧ channel.lan = true) ∧ typedIp ip = target := by
  unfold readTargetIp typedIp
  cases ip with
  | none => simp
  | some text =>
    by_cases hblank : trim text = ""
    · simp [hblank, Option.filter]
    · have hfilter : ((some text).map trim).filter (fun s => s ≠ "") = some (trim text) := by
        simp [Option.filter, hblank]
      rw [hfilter]
      cases hlan : channel.lan with
      | false => simp [hblank]
      | true =>
        cases hip : Ipv4Addr.parse (trim text) <;>
          simp [hblank, hip, ← Ipv4Addr.isSome_parse]

/-- **The peer that is picked** is one of the cards, and the typed text is its key, in one of the
two forms. -/
lemma picked_cases {cards : List IdentityCard} {selected : String} {found : IdentityCard}
    (hselected : ((cfg.peerPublicKey.map trim).filter fun key => key ≠ "") = some selected)
    (hfound : cards.find? (fun card => card.publicKey.toHex = selected ∨
      B.npub card.publicKey = selected) = some found) :
    found ∈ cards ∧ ∃ text, cfg.peerPublicKey = some text ∧
      (trim text = found.publicKey.toHex ∨ trim text = B.npub found.publicKey) := by
  obtain ⟨hmap, -⟩ := Option.filter_eq_some_iff.1 hselected
  obtain ⟨text, htext, rfl⟩ := Option.map_eq_some_iff.1 hmap
  have hnames := List.find?_some hfound
  rw [decide_eq_true_eq] at hnames
  exact ⟨List.mem_of_find?_eq_some hfound, text, htext, hnames.imp Eq.symm Eq.symm⟩

/-- A PIN has to be there to be normalized. -/
lemma normalizePin_getD {pin : Option String} {p : String} :
    normalizePin (pin.getD "") = some p ↔ ∃ text, pin = some text ∧ normalizePin text = some p := by
  cases pin with
  | none =>
    have hempty : normalizePin "" = none := by decide
    simp [hempty]
  | some text => simp

end Checks

/-! ## What is accepted -/

section Accepted

variable {N : Nostr} {B : Bech32} {cfg : FfiConfig} {plan : StartPlan}

/-- The plan of a device that shares with one of its peers: it hosts, or it dials. The two keys
decide on the side and on nothing else; the channel is the one that was asked for, or the default.
-/
def FfiConfig.sharePlan (cfg : FfiConfig) (irohSecret : Bytes) (identity : KeyIdentity)
    (peer : PublicKey) : StartPlan :=
  match sessionRole identity.identity.publicKey peer with
  | .host =>
    .host irohSecret (.startServer (.key identity peer (cfg.channel.getD .lanThenNostr)))
  | .dial => .dial irohSecret (.connect (.key identity peer (cfg.channel.getD .lanThenNostr)))

/-- **Every valid configuration is accepted.**

**Proof sketch.** Each check passes for a valid configuration. For a session with a peer, the peer
is found in the list by its key, in either form of it. -/
lemma FfiConfig.Valid.accepted (hB : B.Lawful) (h : cfg.Valid N B) :
    ∃ plan, buildStartPlan N B cfg = .ok plan := by
  obtain ⟨secretText, bytes, hsecretText, hbytes, hlength⟩ := h.irohSecret
  obtain ⟨selfText, selfCard, hselfText, hselfCard, hconnect⟩ := h.selfCard
  have hsecret := parseIrohSecret_eq_ok.2 ⟨secretText, hsecretText, hbytes, hlength⟩
  have hsetup : ¬ (cfg.role ≠ .connect ∧ (cfg.identitySecret.isSome ∨ cfg.peers ≠ [])) := by
    rintro ⟨hrole, hfield⟩
    obtain ⟨hidentity, hpeers, -⟩ := h.cardSetup hrole
    rcases hfield with hfield | hfield
    · rw [hidentity] at hfield
      cases hfield
    · exact hfield hpeers
  have htyped : ¬ (cfg.role ≠ .cardJoin ∧ (cfg.pin.isSome ∨ cfg.ip.isSome)) := by
    rintro ⟨hrole, hfield⟩
    obtain ⟨hpin, hip⟩ := h.typed hrole
    rcases hfield with hfield | hfield
    · rw [hpin] at hfield
      cases hfield
    · rw [hip] at hfield
      cases hfield
  have hpeerKey : ¬ (cfg.role ≠ .connect ∧ cfg.peerPublicKey.isSome) := by
    rintro ⟨hrole, hfield⟩
    rw [(h.cardSetup hrole).2.2] at hfield
    cases hfield
  simp only [buildStartPlan, bind_eq_ok, okOr_eq_ok, labelled_eq_ok, refuseIf_eq_ok]
  cases hrole : cfg.role with
  | cardHost =>
    rw [hrole] at hsetup htyped hpeerKey
    exact ⟨.host bytes (.startServer (.cardSetup selfCard cfg.signalChannel cfg.signalRelays)),
      bytes, hsecret, selfText, hselfText, selfCard, hselfCard, (), hsetup, (), htyped, (),
      hpeerKey, rfl⟩
  | cardJoin =>
    obtain ⟨⟨text, htext, hpin⟩, hip⟩ := h.join hrole
    obtain ⟨canonicalPin, hpin⟩ := Option.isSome_iff_exists.1 hpin
    rw [hrole] at hsetup htyped hpeerKey
    refine ⟨.dial bytes (.connect (.cardSetup canonicalPin selfCard (typedIp cfg.ip)
      cfg.signalChannel cfg.signalRelays)), bytes, hsecret, selfText, hselfText, selfCard,
      hselfCard, (), hsetup, (), htyped, (), hpeerKey, ?_⟩
    simp only [bind_eq_ok, okOr_eq_ok]
    exact ⟨canonicalPin, normalizePin_getD.2 ⟨text, htext, hpin⟩, typedIp cfg.ip,
      readTargetIp_eq_ok.2 ⟨hip, rfl⟩, rfl⟩
  | connect =>
    obtain ⟨⟨text, identity, htext, hidentity, hself⟩, cards, hparse, hcount, hdistinct, hown,
      selText, card, hselText, hcard, hsel⟩ := hconnect hrole
    obtain ⟨found, hfound, -⟩ := Device.find_selected hB ⟨card, hcard, rfl⟩ hsel
    have hread : readPeers N identity.publicKey cfg.peers [] = .ok cards :=
      readPeers_eq_ok.2 ⟨hparse, fun c hc => hself ▸ hown c hc, fun _ _ => List.not_mem_nil,
        hdistinct⟩
    have hpeers : ¬ MAX_TRUSTED_PEERS < cfg.peers.length := by
      rw [hparse.length_eq]
      exact Nat.not_lt.2 hcount
    have hselected : ((cfg.peerPublicKey.map trim).filter fun key => key ≠ "") =
        some (trim selText) := by
      simp [hselText, Device.selected_ne hB hsel]
    rw [hrole] at hsetup htyped hpeerKey
    refine ⟨cfg.sharePlan bytes ⟨identity, selfCard, cards,
        if cfg.relays = [] then defaultRelays else cfg.relays⟩ found.publicKey, bytes, hsecret,
      selfText, hselfText, selfCard, hselfCard, (), hsetup, (), htyped, (), hpeerKey, ?_⟩
    simp only [bind_eq_ok, okOr_eq_ok, labelled_eq_ok, refuseIf_eq_ok]
    refine ⟨text, htext, identity, hidentity, (), not_not.2 hself, (), hpeers, cards, hread, _,
      hselected, found, by simpa using hfound, ?_⟩
    unfold FfiConfig.sharePlan
    cases sessionRole identity.publicKey found.publicKey
    · rfl
    · rfl

/-- **What is accepted is valid**, and its plan is sound, unless it is a card setup whose PIN is not
canonical.

**Proof sketch.** Read backwards, each check that was passed gives a field of what is valid. The
plan of a session has a peer from the list, which is not the own key; the plan of a card setup has
the text that the PIN was normalized to. -/
lemma valid_of_accepted (h : buildStartPlan N B cfg = .ok plan) : cfg.Valid N B ∧
    (cfg.role ≠ .cardJoin → plan.Sound) ∧
    (cfg.role = .cardJoin → ∃ text p, cfg.pin = some text ∧ normalizePin text = some p ∧
      (plan.Sound ↔ CanonicalPin p)) := by
  simp only [buildStartPlan, bind_eq_ok, okOr_eq_ok, labelled_eq_ok, refuseIf_eq_ok] at h
  obtain ⟨bytes, hsecret, selfText, hselfText, selfCard, hselfCard, -, hsetup, -, htyped, -,
    hpeerKey, h⟩ := h
  obtain ⟨secretText, hsecret⟩ := parseIrohSecret_eq_ok.1 hsecret
  have hsetup' : cfg.role ≠ .connect →
      cfg.identitySecret = none ∧ cfg.peers = [] ∧ cfg.peerPublicKey = none := by
    intro hrole
    refine ⟨?_, ?_, ?_⟩
    · exact Option.not_isSome_iff_eq_none.1 fun hfield => hsetup ⟨hrole, .inl hfield⟩
    · exact not_not.1 fun hfield => hsetup ⟨hrole, .inr hfield⟩
    · exact Option.not_isSome_iff_eq_none.1 fun hfield => hpeerKey ⟨hrole, hfield⟩
  have htyped' : cfg.role ≠ .cardJoin → cfg.pin = none ∧ cfg.ip = none := by
    intro hrole
    refine ⟨?_, ?_⟩
    · exact Option.not_isSome_iff_eq_none.1 fun hfield => htyped ⟨hrole, .inl hfield⟩
    · exact Option.not_isSome_iff_eq_none.1 fun hfield => htyped ⟨hrole, .inr hfield⟩
  have hvalid : (cfg.role = .connect → cfg.ValidConnect N B selfCard) →
      (cfg.role = .cardJoin → cfg.ValidJoin) → cfg.Valid N B := fun hconnect hjoin =>
    ⟨⟨secretText, bytes, hsecret⟩, ⟨selfText, selfCard, hselfText, hselfCard, hconnect⟩, hsetup',
      htyped', hjoin⟩
  cases hrole : cfg.role with
  | cardHost =>
    simp only [hrole, pure, Except.pure, Except.ok.injEq] at h
    subst h
    refine ⟨hvalid (fun h => ?_) fun h => ?_, fun _ => rfl, fun h => ?_⟩
    · rw [hrole] at h
      cases h
    · rw [hrole] at h
      cases h
    · cases h
  | cardJoin =>
    simp only [hrole, bind_eq_ok, okOr_eq_ok, pure, Except.pure, Except.ok.injEq] at h
    obtain ⟨p, hp, _, hip, rfl⟩ := h
    obtain ⟨text, htext, hp⟩ := normalizePin_getD.1 hp
    have hjoin : cfg.ValidJoin := ⟨⟨text, htext, by simp [hp]⟩, (readTargetIp_eq_ok.1 hip).1⟩
    refine ⟨hvalid (fun h => ?_) fun _ => hjoin, fun h => absurd rfl h,
      fun _ => ⟨text, p, htext, hp, ?_⟩⟩
    · rw [hrole] at h
      cases h
    · exact and_iff_left rfl
  | connect =>
    simp only [hrole, bind_eq_ok, okOr_eq_ok, labelled_eq_ok, refuseIf_eq_ok] at h
    obtain ⟨text, htext, identity, hidentity, -, hself, -, hcount, cards, hread, selected,
      hselected, found, hfound, h⟩ := h
    have hself := not_not.1 hself
    obtain ⟨hparse, hown, -, hdistinct⟩ := readPeers_eq_ok.1 hread
    obtain ⟨hmem, selText, hselText, hnames⟩ := picked_cases hselected hfound
    have hconnect : cfg.ValidConnect N B selfCard :=
      ⟨⟨text, identity, htext, hidentity, hself⟩, cards, hparse,
        hparse.length_eq ▸ Nat.not_lt.1 hcount, hdistinct, fun c hc => hself ▸ hown c hc,
        selText, found, hselText, hmem, hnames⟩
    refine ⟨hvalid (fun _ => hconnect) fun h => ?_, fun _ => ?_, fun h => ?_⟩
    · rw [hrole] at h
      cases h
    · have htrusts : ∀ relays, (⟨identity, selfCard, cards, relays⟩ : KeyIdentity).Trusts
          found.publicKey := fun _ => ⟨⟨found, hmem, rfl⟩, hown found hmem⟩
      split at h
      all_goals
        rename_i hhalf
        obtain rfl := Except.ok.inj h
        exact ⟨htrusts _, hhalf, rfl⟩
    · cases h

/-- **Exactly the valid configurations are accepted, and their plans are sound**, unless the PIN of
a card setup is a text that masquerades as one.

**Proof sketch.** A valid configuration is accepted, and what is accepted is valid, so only the
soundness of the plans is in question; and a text is normalized to a PIN that is none exactly if it
masquerades. -/
theorem buildStartPlan_valid_iff {N : Nostr} {B : Bech32} (hB : B.Lawful) (cfg : FfiConfig) :
    (((∃ plan, buildStartPlan N B cfg = .ok plan) ↔ cfg.Valid N B) ∧
      ∀ plan, buildStartPlan N B cfg = .ok plan → plan.Sound) ↔
    ¬ (cfg.Valid N B ∧ cfg.role = .cardJoin ∧ ∃ text, cfg.pin = some text ∧ Masquerades text) := by
  constructor
  · rintro ⟨-, hsound⟩ ⟨hvalid, hrole, text, htext, hmask⟩
    obtain ⟨plan, hplan⟩ := hvalid.accepted hB
    obtain ⟨text', p, htext', hp, hiff⟩ := (valid_of_accepted hplan).2.2 hrole
    obtain rfl : text' = text := Option.some.inj (htext'.symm.trans htext)
    obtain ⟨p', hp', hnot⟩ := hmask.accepted
    obtain rfl : p' = p := Option.some.inj (hp'.symm.trans hp)
    exact hnot (hiff.1 (hsound plan hplan))
  · intro h
    refine ⟨⟨fun ⟨_, hplan⟩ => (valid_of_accepted hplan).1, fun hvalid => hvalid.accepted hB⟩,
      fun plan hplan => ?_⟩
    obtain ⟨hvalid, hother, hjoin⟩ := valid_of_accepted hplan
    by_cases hrole : cfg.role = .cardJoin
    · obtain ⟨text, p, htext, hp, hiff⟩ := hjoin hrole
      have hmask : ¬ Masquerades text := fun hmask => h ⟨hvalid, hrole, text, htext, hmask⟩
      exact hiff.2 (canonicalPin_of_not_masquerades hp hmask).1
    · exact hother hrole

end Accepted

section Sample

/-- The keys of two devices, -/
def planKey (i : UInt8) : PublicKey := .filled i

/-- and their cards. -/
def planCard (i : UInt8) (name : String) : IdentityCard :=
  Nostr.signedCard (planKey i) ⟨IDENTITY_CARD_VERSION, name, 5, 6⟩

/-- A configuration to share with the other device. The key, the card and the channel are in the
forms in which an application hands them over. -/
def connectConfig : FfiConfig where
  role := .connect
  irohSecret := some (toHex (List.replicate 32 9))
  identitySecret := some (Bech32.standard.toNsec ⟨planKey 1⟩)
  selfCard := some (planCard 1 "desk_a7B2c3D4").encode
  peers := [(planCard 2 "phone_9zKtm4Qp").encode]
  peerPublicKey := some (planKey 2).toHex
  pin := none
  ip := none
  channel := none
  relays := []

/-- The plan of that configuration: the first key hosts for the second. -/
def connectPlan : StartPlan :=
  .host (List.replicate 32 9) (.startServer (.key
    ⟨⟨planKey 1⟩, planCard 1 "desk_a7B2c3D4", [planCard 2 "phone_9zKtm4Qp"], defaultRelays⟩
    (planKey 2) .lanThenNostr))

/-- Each card is read from its text. -/
lemma parse_planCard (i : UInt8) {name : String}
    (h : CardContent.isSound ⟨IDENTITY_CARD_VERSION, name, 5, 6⟩ = true) :
    IdentityCard.parse .ofJson (planCard i name).encode = .ok (planCard i name) :=
  Nostr.parse_ofJson (planKey i) h

/-- The configuration to share is accepted. The texts of the cards are read by the lemma above, and
never run.

**Proof sketch.** The two cards parse by the lemma about them. The checks of the plan are then taken
one after the other. -/
lemma connectConfig_plan : buildStartPlan .ofJson .standard connectConfig = .ok connectPlan := by
  have hdesk : IdentityCard.parse .ofJson (planCard 1 "desk_a7B2c3D4").encode = .ok _ :=
    parse_planCard 1 (by decide +kernel)
  have hphone : IdentityCard.parse .ofJson (planCard 2 "phone_9zKtm4Qp").encode = .ok _ :=
    parse_planCard 2 (by decide +kernel)
  have hsecret : parseIrohSecret connectConfig.irohSecret = .ok (List.replicate 32 9) := by
    decide +kernel
  have hpeers : readPeers .ofJson (planKey 1) connectConfig.peers [] =
      .ok [planCard 2 "phone_9zKtm4Qp"] :=
    readPeers_ok (.cons hphone .nil) (by decide) (by simp) (by simp)
  have hkey : (planCard 2 "phone_9zKtm4Qp").publicKey = planKey 2 := rfl
  have hselected : ((connectConfig.peerPublicKey.map trim).filter fun key => key ≠ "") =
      some (planKey 2).toHex := by decide +kernel
  simp only [buildStartPlan, bind_eq_ok, okOr_eq_ok, labelled_eq_ok, refuseIf_eq_ok]
  refine ⟨_, hsecret, _, rfl, _, hdesk, (), by decide, (), by decide, (), by decide, ?_⟩
  simp only [connectConfig, bind_eq_ok, okOr_eq_ok, labelled_eq_ok, refuseIf_eq_ok]
  refine ⟨_, rfl, ⟨planKey 1⟩, Identity.parseNsec_toNsec Bech32.standard_lawful ⟨planKey 1⟩, (),
    not_not.2 rfl, (), by decide, _, hpeers, _, hselected, planCard 2 "phone_9zKtm4Qp", ?_, rfl⟩
  simp [hkey]

/-- A configuration to join a card setup with a text that is no PIN. -/
def masqueradeConfig : FfiConfig :=
  { connectConfig with
    role := .cardJoin, identitySecret := none, peers := [], peerPublicKey := none,
    pin := some "000\u0130000" }

/-- The configuration to share is accepted, and its plan is sound. -/
theorem buildStartPlan_valid_iff_sample : ∃ plan,
    buildStartPlan .ofJson .standard connectConfig = .ok plan ∧ plan.Sound := by
  obtain ⟨-, hsound⟩ := (buildStartPlan_valid_iff Bech32.standard_lawful connectConfig).2
    fun (h : _ ∧ connectConfig.role = .cardJoin ∧ _) => (by cases h.2.1)
  exact ⟨connectPlan, connectConfig_plan, hsound connectPlan connectConfig_plan⟩

/-- The configuration with the text is complete for its role. -/
lemma masqueradeConfig_valid : masqueradeConfig.Valid .ofJson .standard where
  irohSecret := ⟨_, List.replicate 32 9, rfl, by decide +kernel, rfl⟩
  selfCard := ⟨_, _, rfl, parse_planCard 1 (by decide +kernel), fun h => by cases h⟩
  cardSetup _ := ⟨rfl, rfl, rfl⟩
  typed h := absurd rfl h
  join _ :=
    { pin := ⟨_, rfl, by decide +kernel⟩
      ip := fun text h => by cases h }

/-- **A text that is no PIN is planned with**: its fourth character passes for a zero.

**Proof sketch.** The text is normalized to itself, which has more bytes than characters, so it is
no canonical PIN. -/
theorem buildStartPlan_masquerade : ∃ plan,
    buildStartPlan .ofJson .standard masqueradeConfig = .ok plan ∧ ¬ plan.Sound := by
  obtain ⟨plan, hplan⟩ := masqueradeConfig_valid.accepted Bech32.standard_lawful
  obtain ⟨text, p, htext, hp, hiff⟩ := (valid_of_accepted hplan).2.2 rfl
  obtain rfl := Option.some.inj htext
  have hnormalized : normalizePin "000\u0130000" = some "000\u0130000" := by decide +kernel
  obtain rfl := Option.some.inj (hnormalized.symm.trans hp)
  refine ⟨plan, hplan, fun hsound => ?_⟩
  have hlength := (hiff.1 hsound).length
  revert hlength
  decide +kernel

end Sample

end Duocb
