import Duocb.App.Keys

set_option relaxedAutoImplicit false
set_option autoImplicit false

/-!
# The profile of the application

The identity, the name, the own card and the trusted list are what a configuration keeps. Of all
that can happen to the application, few things change them, and they are listed here once. The steps
of the user interface are the events it drains, the actions it offers and the keys it accepts.

## Main definitions

* `Duocb.Profile`, `Duocb.App.profile` — what a configuration keeps.
* `Duocb.App.Changed` — what an action can make of the profile.
* `Duocb.UiStep`, `Duocb.App.uiStep` — the steps of the user interface.
* `Duocb.Profile.Trusting` — the trusted list is within bounds and without the own key.

## Main results

* `Duocb.App.act_changed` — every action changes the profile as listed.
* `Duocb.App.applyEvent_profile` — no event changes it.
* `Duocb.App.Changed.trusting` — the bounds of the trusted list are kept.
-/

namespace Duocb

/-- What a configuration keeps. These are the fields of the application that saving writes and
loading reads. -/
structure Profile where
  identity : Identity
  savedName : Option String
  deviceSuffix : String
  selfCard : Option IdentityCard
  peers : List IdentityCard
  deriving DecidableEq

/-- The profile of a device that starts over with an identity. -/
def Profile.forget (p : Profile) (identity : Identity) : Profile :=
  ⟨identity, none, p.deviceSuffix, none, []⟩

/-- The trusted list is within bounds, has one card of a key, and none of the own. -/
structure Profile.Trusting (p : Profile) : Prop where
  count : p.peers.length ≤ MAX_TRUSTED_PEERS
  distinct : (p.peers.map IdentityCard.publicKey).Nodup
  others : ∀ card ∈ p.peers, card.publicKey ≠ p.identity.publicKey

/-- A trusted list with a card stored in it: in the place of the card of the same key, if there is
one, and else at the end. -/
def stored (peers : List IdentityCard) (card : IdentityCard) : List IdentityCard :=
  if peers.any (fun peer => peer.publicKey = card.publicKey) then
    peers.modify (peers.findIdx fun peer => peer.publicKey = card.publicKey) fun _ => card
  else peers ++ [card]

/-- A stored list holds nothing but the card and what was there. -/
lemma mem_stored {peers : List IdentityCard} {card c : IdentityCard} (h : c ∈ stored peers card) :
    c = card ∨ c ∈ peers := by
  unfold stored at h
  split_ifs at h
  · obtain ⟨i, hi⟩ := List.mem_iff_getElem?.1 h
    rw [List.getElem?_modify] at hi
    obtain ⟨d, hd, rfl⟩ := Option.map_eq_some_iff.1 hi
    split_ifs
    · exact Or.inl rfl
    · exact Or.inr (List.mem_of_getElem? hd)
  · simpa [or_comm] using h

/-- A card that replaces one leaves the keys as they were. -/
lemma map_modify_findIdx (peers : List IdentityCard) (card : IdentityCard) :
    ((peers.modify (peers.findIdx fun peer => peer.publicKey = card.publicKey) fun _ => card).map
      IdentityCard.publicKey) = peers.map IdentityCard.publicKey := by
  induction peers with
  | nil => rfl
  | cons peer peers ih =>
    rw [List.findIdx_cons]
    by_cases h : peer.publicKey = card.publicKey
    · simp [h]
    · simpa [h] using ih

namespace App

variable {τ : Type}

/-- The profile of an application. -/
def profile (a : App τ) : Profile :=
  ⟨a.identity, a.savedName, a.deviceSuffix, a.selfCard, a.peers⟩

/-- A card can be stored: it is not the own one, its window is open, and there is room for it. -/
structure Storable (a : App τ) (w : Wall) (card : IdentityCard) : Prop where
  other : card.publicKey ≠ a.identity.publicKey
  current : w.isExpired card = false
  room : a.peers.any (fun peer => peer.publicKey = card.publicKey) = true ∨
    a.peers.length < MAX_TRUSTED_PEERS

/-- A name and a card for it are there, and the card is close to its end. -/
structure Renewable (a : App τ) (w : Wall) : Prop where
  named : a.savedName.isSome
  stale : ∃ card, a.selfCard = some card ∧ w.remainingSecs card ≤ CARD_RENEW_BEFORE_SECS

/-- What an action can make of the profile. Every action keeps it or does one of the listed things;
each comes with what the action has checked. -/
inductive Changed (a : App τ) (w : Wall) : UserAction → Profile → Prop where
  | same (u : UserAction) : Changed a w u a.profile
  | generated (fresh : Identity) : Changed a w (.beginGenerate fresh) (a.profile.forget fresh)
  | imported (identity : Identity) (failure : Option String) :
    Changed a w (.useImported (some identity) failure) (a.profile.forget identity)
  | reset (fresh : Identity) (failure : Option String) :
    Changed a w (.resetIdentity fresh failure) (a.profile.forget fresh)
  | named {name : String} (card : IdentityCard) (failure : Option String)
    (valid : validateName name = .ok ()) :
    Changed a w (.saveName name (some card) failure)
      { a.profile with savedName := some name, selfCard := some card }
  | copied (card : IdentityCard) (failure copyFailure : Option String) (stale : a.Renewable w) :
    Changed a w (.copyCard (some card) failure copyFailure)
      { a.profile with selfCard := some card }
  | opened (card : IdentityCard) (failure : Option String) (stale : a.Renewable w) :
    Changed a w (.openCardSetup (some card) failure) { a.profile with selfCard := some card }
  | pasted {card : IdentityCard} (failure : Option String) (storable : a.Storable w card) :
    Changed a w (.importPeerCard (some card) failure)
      { a.profile with peers := stored a.peers card }
  | confirmed {card : IdentityCard} (failure : Option String)
    (pending : a.pendingPeerCard = some card) (storable : a.Storable w card) :
    Changed a w (.importReceivedCard failure) { a.profile with peers := stored a.peers card }
  | removed (key : PublicKey) (failure : Option String) :
    Changed a w (.removePeer key failure)
      { a.profile with peers := a.peers.filter fun peer => peer.publicKey ≠ key }

/-- Saving leaves the profile alone. -/
@[simp] lemma saveConfigureConfig_profile (a : App τ) (failure : Option String) :
    (a.saveConfigureConfig failure).profile = a.profile := by cases failure <;> rfl

/-- Copying a text leaves the profile alone. -/
@[simp] lemma copyToClipboard_profile (a : App τ) (failure : Option String) :
    (a.copyToClipboard failure).profile = a.profile := by cases failure <;> rfl

/-- Starting a clipboard session leaves the profile alone. -/
lemma startClipboardSession_profile (a : App τ) (w : Wall) :
    (a.startClipboardSession w).2.1.profile = a.profile := by
  unfold startClipboardSession
  split
  · split_ifs <;> rfl
  · rfl

/-- Storing a card changes the trusted list, or only reports why not.

**Proof sketch.** By the branches of the function: an error leaves all but the message, and a card
that is stored was checked before it. -/
lemma storePeerCard_cases (a : App τ) (w : Wall) (card : IdentityCard) (failure : Option String) :
    ((a.storePeerCard w card failure).1 = true ∧ a.Storable w card ∧
      (a.storePeerCard w card failure).2 =
        saveConfigureConfig { a with peers := stored a.peers card } failure) ∨
    ((a.storePeerCard w card failure).1 = false ∧
      ∃ message, (a.storePeerCard w card failure).2 = { a with error := some message }) := by
  unfold storePeerCard
  split_ifs with hown hexp hany hfull
  · exact Or.inr ⟨rfl, _, rfl⟩
  · exact Or.inr ⟨rfl, _, rfl⟩
  · refine Or.inl ⟨rfl, ⟨hown, by simpa using hexp, Or.inl hany⟩, ?_⟩
    simp [stored, hany]
  · exact Or.inr ⟨rfl, _, rfl⟩
  · refine Or.inl ⟨rfl, ⟨hown, by simpa using hexp, Or.inr (by omega)⟩, ?_⟩
    simp [stored, hany]

/-- Trusting the card that arrived stores it and returns to the hub, or reports why not.

**Proof sketch.** By the outcome of storing the card, after the confirmation was taken down. -/
lemma importReceivedCard_cases (a : App τ) (w : Wall) (failure : Option String) :
    a.importReceivedCard w failure = a ∨
    ∃ card, a.pendingPeerCard = some card ∧
      ((a.Storable w card ∧
        ∃ b : App τ, b.profile = { a.profile with peers := stored a.peers card } ∧
          b.pendingPeerCard = none ∧
          a.importReceivedCard w failure = { b with screen := .home, configureStep := .ready }) ∨
        ∃ message, a.importReceivedCard w failure =
          { a with pendingPeerCard := none, error := some message, screen := .cardSetup }) := by
  unfold importReceivedCard
  cases hpending : a.pendingPeerCard with
  | none => exact Or.inl rfl
  | some card =>
    refine Or.inr ⟨card, rfl, ?_⟩
    have hcases := ({ a with pendingPeerCard := none } : App τ).storePeerCard_cases w card failure
    simp only
    generalize storePeerCard _ w card failure = r at hcases ⊢
    obtain ⟨flag, b⟩ := r
    rcases hcases with ⟨rfl, hstorable, rfl⟩ | ⟨rfl, message, rfl⟩
    · refine Or.inl ⟨⟨hstorable.other, hstorable.current, hstorable.room⟩, _, ?_, ?_, rfl⟩
      · exact saveConfigureConfig_profile _ failure
      · cases failure <;> rfl
    · exact Or.inr ⟨message, rfl⟩

/-- Renewing the own card changes it only when it is stale and one was minted.

**Proof sketch.** By what the device has: without a card or a name nothing is minted, and a card
that is not stale is kept. -/
lemma renewSelfCardIfStale_cases (a : App τ) (w : Wall) (minted : Option IdentityCard)
    (failure : Option String) :
    a.renewSelfCardIfStale w minted failure = a ∨
    ∃ card, minted = some card ∧ a.Renewable w ∧ a.renewSelfCardIfStale w minted failure =
      saveConfigureConfig { a with selfCard := some card } failure := by
  unfold renewSelfCardIfStale freshlyMintedSelfCard
  cases hself : a.selfCard with
  | none => exact Or.inl rfl
  | some card =>
    cases hname : a.savedName with
    | none => exact Or.inl rfl
    | some name =>
      simp only
      split_ifs with hstale
      · exact Or.inl rfl
      · cases minted with
        | none => exact Or.inl rfl
        | some fresh =>
          exact Or.inr ⟨fresh, rfl, ⟨by simp [hname], card, hself, Nat.le_of_not_lt hstale⟩, rfl⟩

/-- **Every action changes the profile as listed.**

**Proof sketch.** By cases on the action, and then on what the libraries answered and whether the
save failed. -/
theorem act_changed (a : App τ) (w : Wall) (u : UserAction) :
    Changed a w u (a.act w u).1.profile := by
  cases u with
  | beginGenerate fresh => exact .generated fresh
  | useImported imported failure =>
    cases imported with
    | none => exact .same _
    | some identity =>
      simp only [act, useImportedIdentity, saveConfigureConfig_profile]
      exact .imported identity failure
  | saveName name minted failure =>
    simp only [act, saveName]
    split
    · rename_i card hvalid
      cases failure with
      | none => exact .named card none hvalid
      | some e => exact .named card (some e) hvalid
    · exact .same _
  | copyCard minted failure copyFailure =>
    simp only [act, copyToClipboard_profile]
    rcases a.renewSelfCardIfStale_cases w minted failure with h | ⟨card, rfl, hstale, h⟩
    · rw [h]
      exact .same _
    · rw [h, saveConfigureConfig_profile]
      exact .copied card failure copyFailure hstale
  | copyText copyFailure =>
    simp only [act, copyToClipboard_profile]
    exact .same _
  | resetIdentity fresh failure =>
    have hprofile :
        (a.act w (.resetIdentity fresh failure)).1.profile = a.profile.forget fresh := by
      cases failure <;> rfl
    rw [hprofile]
    exact .reset fresh failure
  | importPeerCard pasted failure =>
    cases pasted with
    | none => exact .same _
    | some card =>
      simp only [act, importPeerCard]
      rcases a.storePeerCard_cases w card failure with ⟨-, hstorable, h⟩ | ⟨-, message, h⟩
      · rw [h, saveConfigureConfig_profile]
        exact .pasted failure hstorable
      · rw [h]
        exact .same _
  | importReceivedCard failure =>
    rcases a.importReceivedCard_cases w failure with h | ⟨card, hpending, h⟩
    · rw [show a.act w (.importReceivedCard failure) = (a, []) from congrArg (·, []) h]
      exact .same _
    rcases h with ⟨hstorable, b, hprofile, -, h⟩ | ⟨message, h⟩
    · rw [show a.act w (.importReceivedCard failure) = (_, []) from congrArg (·, []) h]
      change Changed a w _ b.profile
      rw [hprofile]
      exact .confirmed failure hpending hstorable
    · rw [show a.act w (.importReceivedCard failure) = (_, []) from congrArg (·, []) h]
      exact .same _
  | removePeer key failure =>
    simp only [act, removePeer]
    split_ifs with hsame hbox
    · exact .removed key failure
    · rw [saveConfigureConfig_profile]
      exact .removed key failure
    · rw [saveConfigureConfig_profile]
      exact .removed key failure
    · rw [saveConfigureConfig_profile]
      exact .removed key failure
    · rw [saveConfigureConfig_profile]
      exact .removed key failure
  | connectSelected =>
    have hstart := a.startClipboardSession_profile w
    simp only [act, connectSelectedPeer]
    split <;> rename_i b commands heq
    all_goals
      rw [heq] at hstart
      change Changed a w _ b.profile
      rw [hstart]
      exact .same _
  | openCardSetup minted failure =>
    simp only [act, openCardSetup]
    split_ifs with hnone
    · exact .same _
    · change Changed a w _ (a.renewSelfCardIfStale w minted failure).profile
      rcases a.renewSelfCardIfStale_cases w minted failure with h | ⟨card, rfl, hstale, h⟩
      · rw [h]
        exact .same _
      · rw [h, saveConfigureConfig_profile]
        exact .opened card failure hstale
  | movePeerSelection delta =>
    simp only [act, movePeerSelection]
    split <;> exact .same _
  | hostCardSetup =>
    simp only [act, hostCardSetup]
    split <;> exact .same _
  | joinCardSetup pin ip label =>
    simp only [act, joinCardSetup]
    split <;> exact .same _
  | retryConnect =>
    simp only [act, retryConnection]
    split_ifs
    · rw [startClipboardSession_profile]
      exact .same _
    · exact .same _
  | sendClipboard read =>
    simp only [act, sendClipboard, sendText]
    split
    · split_ifs <;> exact .same _
    · exact .same _
  | composeSend draft =>
    simp only [act, sendText]
    split_ifs <;> exact .same _
  | _ => exact .same _

/-- **No event changes the profile.**

**Proof sketch.** By cases on the event: an event writes the session, the boxes and what is on the
screen. -/
theorem applyEvent_profile (a : App τ) (now : τ) (e : NetEvent) :
    (a.applyEvent now e).profile = a.profile := by
  cases e with
  | peerCardReceived card =>
    simp only [applyEvent]
    split <;> rfl
  | status status => cases status <;> rfl
  | itemReceived text pulled =>
    simp only [applyEvent]
    split <;> rfl
  | itemSent =>
    simp only [applyEvent]
    split <;> rfl
  | _ => rfl

/-- A list with a storable card stored in it stays within bounds.

**Proof sketch.** A card of a known key takes the place of the old one, so the keys stay as they
are. A new one comes behind the others, of which there are fewer than the limit. -/
lemma Storable.trusting {a : App τ} {w : Wall} {card : IdentityCard} (h : a.Storable w card)
    (ha : a.profile.Trusting) :
      Profile.Trusting { a.profile with peers := stored a.peers card } := by
  have hothers : ∀ c ∈ stored a.peers card, c.publicKey ≠ a.identity.publicKey := by
    intro c hc
    rcases mem_stored hc with rfl | hc
    · exact h.other
    · exact ha.others c hc
  by_cases hany : a.peers.any (fun peer => peer.publicKey = card.publicKey) = true
  · have hstored : stored a.peers card =
        a.peers.modify (a.peers.findIdx fun peer => peer.publicKey = card.publicKey)
          fun _ => card :=
      if_pos hany
    refine ⟨?_, ?_, hothers⟩
    · simp only [hstored, List.length_modify]
      exact ha.count
    · simp only [hstored, map_modify_findIdx]
      exact ha.distinct
  · have hstored : stored a.peers card = a.peers ++ [card] := if_neg hany
    have hroom := h.room.resolve_left hany
    refine ⟨?_, ?_, hothers⟩
    · simp only [hstored, List.length_append, List.length_singleton]
      exact hroom
    · simp only [hstored, List.map_append, List.map_singleton]
      refine List.nodup_append.2 ⟨ha.distinct, by simp, ?_⟩
      rintro k hk l hl rfl
      obtain ⟨peer, hpeer, rfl⟩ := List.mem_map.1 hk
      exact hany (List.any_eq_true.2 ⟨peer, hpeer, by simpa using hl⟩)

/-- **The bounds of the trusted list are kept.**

**Proof sketch.** By cases on what the action changes: a new identity trusts nobody, a card that is
stored was storable, and a card that is removed leaves the others. -/
theorem Changed.trusting {a : App τ} {w : Wall} {u : UserAction} {p : Profile}
    (h : Changed a w u p) (ha : a.profile.Trusting) : p.Trusting := by
  have hempty : ∀ identity, (a.profile.forget identity).Trusting := fun identity =>
    ⟨Nat.zero_le _, List.nodup_nil, fun _ hc => absurd hc List.not_mem_nil⟩
  cases h with
  | same => exact ha
  | generated fresh => exact hempty fresh
  | imported identity => exact hempty identity
  | reset fresh => exact hempty fresh
  | named | copied | opened => exact ⟨ha.count, ha.distinct, ha.others⟩
  | pasted failure storable => exact storable.trusting ha
  | confirmed failure pending storable => exact storable.trusting ha
  | removed key failure =>
    refine ⟨Nat.le_trans (List.length_filter_le _ _) ha.count, ?_, fun c hc => ?_⟩
    · exact ha.distinct.sublist (List.filter_sublist.map _)
    · exact ha.others c (List.mem_of_mem_filter hc)

/-- A key that is new on the list was stored there.

**Proof sketch.** By the listed changes. Only the two imports put a card on the list, and there it
is the one of the action. -/
lemma Changed.mem_peers {a : App τ} {w : Wall} {u : UserAction} {p : Profile} (h : Changed a w u p)
    {card : IdentityCard} (hcard : card ∈ p.peers) (hnew : card ∉ a.peers) :
    a.Storable w card ∧ ((∃ failure, u = .importPeerCard (some card) failure) ∨
      ∃ failure, u = .importReceivedCard failure ∧ a.pendingPeerCard = some card) := by
  cases h with
  | same | named | copied | opened => exact absurd hcard hnew
  | generated | imported | reset => exact absurd hcard List.not_mem_nil
  | pasted failure storable =>
    rcases mem_stored hcard with rfl | hc
    · exact ⟨storable, Or.inl ⟨failure, rfl⟩⟩
    · exact absurd hc hnew
  | confirmed failure pending storable =>
    rcases mem_stored hcard with rfl | hc
    · exact ⟨storable, Or.inr ⟨failure, rfl, pending⟩⟩
    · exact absurd hc hnew
  | removed key failure => exact absurd (List.mem_of_mem_filter hcard) hnew

/-! ## The card that waits -/

/-- The confirmation screen is up for the card that waits only if it was before. -/
def Held (a b : App τ) : Prop :=
  b.pendingPeerCard = a.pendingPeerCard ∧ (b.screen = .cardConfirm → a.screen = .cardConfirm)

/-- The card that waited is gone, and so is the screen that asked about it. -/
def Dropped (b : App τ) : Prop := b.pendingPeerCard = none ∧ b.screen ≠ .cardConfirm

/-- An application holds what it holds. -/
lemma Held.refl (a : App τ) : Held a a := ⟨rfl, id⟩

/-- Saving changes nothing of what is held. -/
lemma held_saveConfigureConfig {a b : App τ} (hpending : b.pendingPeerCard = a.pendingPeerCard)
    (hscreen : b.screen = a.screen) (failure : Option String) :
    Held a (b.saveConfigureConfig failure) := by
  cases failure <;> exact ⟨hpending, fun h => hscreen ▸ h⟩

/-- Copying a text changes nothing of what is held. -/
lemma Held.copyToClipboard {a b : App τ} (h : Held a b) (failure : Option String) :
    Held a (b.copyToClipboard failure) := by cases failure <;> exact h

/-- Renewing the own card changes nothing of what is held. -/
lemma held_renewSelfCardIfStale (a : App τ) (w : Wall) (minted : Option IdentityCard)
    (failure : Option String) : Held a (a.renewSelfCardIfStale w minted failure) := by
  rcases a.renewSelfCardIfStale_cases w minted failure with h | ⟨card, -, -, h⟩
  · rw [h]
    exact .refl a
  · rw [h]
    exact held_saveConfigureConfig rfl rfl failure

/-- Starting a session changes nothing of what is held. -/
lemma held_startClipboardSession (a : App τ) (w : Wall) :
    Held a (a.startClipboardSession w).2.1 := by
  unfold startClipboardSession
  split
  · split_ifs <;> exact .refl a
  · exact .refl a

/-- An action leaves the card that waits alone, or drops it with its screen.

**Proof sketch.** By cases on the action. Only going back from the question, and answering it, touch
the card that waits. -/
lemma act_pending (a : App τ) (w : Wall) (u : UserAction) :
    Held a (a.act w u).1 ∨ Dropped (a.act w u).1 := by
  cases u with
  | goBack =>
    cases hscreen : a.screen with
    | cardConfirm => exact Or.inr (by simp [Dropped, act, goBack, hscreen])
    | _ => exact Or.inl (by simp [Held, act, goBack, hscreen])
  | useImported imported failure =>
    cases imported with
    | none => exact Or.inl (.refl a)
    | some identity => exact Or.inl (held_saveConfigureConfig rfl rfl failure)
  | saveName name minted failure =>
    simp only [act, saveName]
    split
    · cases failure <;> exact Or.inl (.refl a)
    · exact Or.inl (.refl a)
  | copyCard minted failure copyFailure =>
    exact Or.inl ((a.held_renewSelfCardIfStale w minted failure).copyToClipboard copyFailure)
  | copyText copyFailure => exact Or.inl ((Held.refl a).copyToClipboard copyFailure)
  | resetIdentity fresh failure => cases failure <;> exact Or.inl (.refl a)
  | importPeerCard pasted failure =>
    cases pasted with
    | none => exact Or.inl (.refl a)
    | some card =>
      simp only [act, importPeerCard]
      rcases a.storePeerCard_cases w card failure with ⟨-, -, h⟩ | ⟨-, message, h⟩
      · rw [h]
        exact Or.inl (held_saveConfigureConfig rfl rfl failure)
      · rw [h]
        exact Or.inl (.refl a)
  | importReceivedCard failure =>
    change Held a (a.importReceivedCard w failure) ∨ Dropped (a.importReceivedCard w failure)
    rcases a.importReceivedCard_cases w failure with h | ⟨card, -, h⟩
    · rw [h]
      exact Or.inl (.refl a)
    rcases h with ⟨-, b, -, hpending, h⟩ | ⟨message, h⟩
    · rw [h]
      exact Or.inr ⟨hpending, by simp⟩
    · rw [h]
      exact Or.inr ⟨rfl, by simp⟩
  | cancelReceivedCard => exact Or.inr ⟨rfl, by simp [act, cancelReceivedCard]⟩
  | removePeer key failure =>
    simp only [act, removePeer]
    split_ifs
    · exact Or.inl (.refl a)
    all_goals exact Or.inl (held_saveConfigureConfig rfl rfl failure)
  | connectSelected =>
    have hstart := a.held_startClipboardSession w
    simp only [act, connectSelectedPeer]
    split <;> rename_i b commands heq
    all_goals rw [heq] at hstart
    · exact Or.inl ⟨hstart.1, fun h => by cases h⟩
    · exact Or.inl hstart
  | openCardSetup minted failure =>
    simp only [act, openCardSetup]
    split_ifs
    · exact Or.inl (.refl a)
    · exact Or.inl ⟨(a.held_renewSelfCardIfStale w minted failure).1, fun h => by cases h⟩
  | movePeerSelection delta =>
    simp only [act, movePeerSelection]
    split <;> exact Or.inl (.refl a)
  | hostCardSetup =>
    simp only [act, hostCardSetup]
    split
    · exact Or.inl (.refl a)
    · exact Or.inl ⟨rfl, fun h => by cases h⟩
  | joinCardSetup pin ip label =>
    simp only [act, joinCardSetup]
    split
    · exact Or.inl (.refl a)
    · exact Or.inl ⟨rfl, fun h => by cases h⟩
  | retryConnect =>
    simp only [act, retryConnection]
    split_ifs
    · exact Or.inl (held_startClipboardSession { a with error := none } w)
    · exact Or.inl (.refl a)
  | sendClipboard read =>
    simp only [act, sendClipboard, sendText]
    split
    · split_ifs <;> exact Or.inl (.refl a)
    · exact Or.inl (.refl a)
  | composeSend draft =>
    simp only [act, sendText]
    split_ifs <;> exact Or.inl (.refl a)
  | _ => exact Or.inl (.refl a)

/-- An event leaves the card that waits alone, or delivers one of another key.

**Proof sketch.** By the event. A card of the own key is refused, and any other event leaves the
card that waits alone. -/
lemma applyEvent_pending (a : App τ) (now : τ) (e : NetEvent) :
    Held a (a.applyEvent now e) ∨
    ∃ card, e = .peerCardReceived card ∧ card.publicKey ≠ a.identity.publicKey ∧
      (a.applyEvent now e).pendingPeerCard = some card := by
  cases e with
  | peerCardReceived card =>
    simp only [applyEvent]
    split_ifs with hown
    · exact Or.inl ⟨rfl, fun h => by cases h⟩
    · exact Or.inr ⟨card, rfl, hown, rfl⟩
  | status status => cases status <;> exact Or.inl (.refl a)
  | itemReceived text pulled =>
    simp only [applyEvent]
    split <;> exact Or.inl (.refl a)
  | itemSent =>
    simp only [applyEvent]
    split <;> exact Or.inl (.refl a)
  | _ => exact Or.inl (.refl a)

end App

/-! ## The steps of the user interface -/

/-- A step of the user interface: it drains an event, a widget is used, or a key is pressed. -/
inductive UiStep (τ : Type) where
  | event (now : τ) (e : NetEvent)
  | action (w : Wall) (u : UserAction)
  | key (w : Wall) (k : KeyPress) (i : Inputs)

variable {τ : Type}

/-- The action that a step performs, and when. A widget works only where it is offered. -/
def UiStep.fired (a : App τ) : UiStep τ → Option (Wall × UserAction)
  | .event _ _ => none
  | .action w u => if a.enabled u then some (w, u) else none
  | .key w k i => (a.handleGlobalKey k i).2.map fun u => (w, u)

/-- One step of the user interface. An event of the runtime is applied. A click that is offered, and
a key that fires, become the action; any other key leaves the application as it is. -/
def App.uiStep (a : App τ) (s : UiStep τ) : Option (App τ) :=
  match s, s.fired a with
  | .event now e, _ => some (a.applyEvent now e)
  | .action _ _, none => none
  | .key _ _ _, none => some a
  | _, some (w, u) => some (a.act w u).1

/-- A step performs an action only where it is offered. -/
lemma App.fired_enabled {a : App τ} {s : UiStep τ} {w : Wall} {u : UserAction}
    (h : s.fired a = some (w, u)) : a.enabled u = true := by
  cases s with
  | event now e => cases h
  | action w' u' =>
    simp only [UiStep.fired, Option.ite_none_right_eq_some, Option.some.injEq, Prod.mk.injEq] at h
    obtain ⟨hu, -, rfl⟩ := h
    exact hu
  | key w' k i =>
    obtain ⟨u', hu, heq⟩ := Option.map_eq_some_iff.1 h
    obtain ⟨rfl, rfl⟩ := Prod.mk.inj heq
    exact handleGlobalKey_enabled hu

/-- A step drains an event, or performs an action that is offered, or changes nothing.

**Proof sketch.** By the kind of the step. An action is fired only if it is offered, and so is one
that a key fires. -/
lemma App.uiStep_cases {a b : App τ} {s : UiStep τ} (h : a.uiStep s = some b) :
    (∃ now e, s = .event now e ∧ b = a.applyEvent now e) ∨
    (∃ w u, s.fired a = some (w, u) ∧ a.enabled u = true ∧ b = (a.act w u).1) ∨ b = a := by
  cases s with
  | event now e => exact Or.inl ⟨now, e, rfl, (Option.some.inj h).symm⟩
  | action w u =>
    by_cases hu : a.enabled u = true
    · have hfired : (UiStep.action w u : UiStep τ).fired a = some (w, u) := if_pos hu
      simp only [uiStep, hfired, Option.some.injEq] at h
      exact Or.inr (Or.inl ⟨w, u, hfired, hu, h.symm⟩)
    · have hfired : (UiStep.action w u : UiStep τ).fired a = none := if_neg hu
      simp [uiStep, hfired] at h
  | key w k i =>
    cases hu : (a.handleGlobalKey k i).2 with
    | none =>
      have hfired : (UiStep.key w k i : UiStep τ).fired a = none := by simp [UiStep.fired, hu]
      simp only [uiStep, hfired, Option.some.injEq] at h
      exact Or.inr (Or.inr h.symm)
    | some u =>
      have hfired : (UiStep.key w k i : UiStep τ).fired a = some (w, u) := by
        simp [UiStep.fired, hu]
      simp only [uiStep, hfired, Option.some.injEq] at h
      exact Or.inr (Or.inl ⟨w, u, hfired, handleGlobalKey_enabled hu, h.symm⟩)

/-- What a step of the user interface keeps, when every offered action and every event keeps it. -/
lemma App.uiStep_keeps {I : App τ → Prop} {a b : App τ} {s : UiStep τ} (h : a.uiStep s = some b)
    (ha : I a) (hevent : ∀ now e, s = .event now e → I (a.applyEvent now e))
    (haction : ∀ w u, s.fired a = some (w, u) → a.enabled u = true → I (a.act w u).1) : I b := by
  rcases uiStep_cases h with ⟨now, e, hs, rfl⟩ | ⟨w, u, hfired, hu, rfl⟩ | rfl
  · exact hevent now e hs
  · exact haction w u hfired hu
  · exact ha

end Duocb
