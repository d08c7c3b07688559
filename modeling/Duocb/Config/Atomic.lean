import Duocb.Config.RoundTrip

set_option relaxedAutoImplicit false
set_option autoImplicit false

/-!
# Trust and the disk

Granting trust, withdrawing it, and naming the device change the application first and save it then.
A save that fails is reported, but the change stays, so from then on the application trusts other
devices than its configuration does. A card that is imported is even reported as stored.

## Main definitions

* `Duocb.TrustOp`, `Duocb.TrustOp.apply` — the operations that change what is trusted.
* `Duocb.TrustOp.Persists` — how saving ends, and what is on the disk then.
* `Duocb.TrustOp.Atomic` — an operation is made in memory and on the disk, or in neither.

## Main results

* `Duocb.TrustOp.atomic_iff` — an operation is atomic if its save does not fail, or there is nothing
  that it has to change.
* `Duocb.TrustOp.trust_without_saving` — a card is trusted and reported as stored, and is not saved.
-/

namespace Duocb

variable {τ : Type}

/-! ## The operations -/

/-- The operations that change what is trusted, with the card that the pasted text parses to, and
the own card that is minted for a name. -/
inductive TrustOp where
  | importPeerCard (pasted : Option IdentityCard)
  | importReceivedCard
  | removePeer (key : PublicKey)
  | saveName (name : String) (minted : Option IdentityCard)
  deriving DecidableEq

/-- The configuration file of a store, if there is one that can be read. -/
def Store.parsed (J : ConfigJson) (s : Store) : Option ConfigFile :=
  s.file.bind fun content => (J.fromJson content).toOption

/-- The cards that the disk trusts. -/
def Store.trusted (J : ConfigJson) (s : Store) : List String :=
  ((s.parsed J).map ConfigFile.peers).getD []

/-- The disk trusts the cards of the file that it holds. -/
lemma Store.trusted_of_read {J : ConfigJson} {s : Store} {content : String} {file : ConfigFile}
    (hfile : s.file = some content) (hread : J.fromJson content = .ok file) :
    s.trusted J = file.peers := by
  simp [Store.trusted, Store.parsed, hfile, hread, Except.toOption]

namespace TrustOp

/-- What an operation makes of the application, when saving ends with a failure or without. Each is
the action of the application under the same name, with the outcome of saving that the source hands
it. -/
def apply (op : TrustOp) (a : App τ) (w : Wall) (failure : Option String) : App τ :=
  match op with
  | .importPeerCard pasted => a.importPeerCard w pasted failure
  | .importReceivedCard => a.importReceivedCard w failure
  | .removePeer key => a.removePeer key failure
  | .saveName name minted => a.saveName name minted failure

/-- The card that is to be trusted. -/
def card (op : TrustOp) (a : App τ) : Option IdentityCard :=
  match op with
  | .importPeerCard pasted => pasted
  | .importReceivedCard => a.pendingPeerCard
  | _ => none

/-- Whether an operation gets as far as saving. An operation that is refused by its own checks never
saves, so that nothing can fail after it. -/
def saves (op : TrustOp) (a : App τ) (w : Wall) : Bool :=
  match op with
  | .importPeerCard _ | .importReceivedCard =>
    (op.card a).any fun card => (a.storePeerCard w card none).1
  | .removePeer key => a.peers.any fun peer => peer.publicKey = key
  | .saveName name minted => (validateName name).isOk && minted.isSome

/-- Whether an operation reports that it was made: a card was stored, or the screen that follows is
shown, or no error is. -/
def reports (op : TrustOp) (a : App τ) (w : Wall) (failure : Option String) : Bool :=
  match op with
  | .importPeerCard pasted => pasted.any fun card => (a.storePeerCard w card failure).1
  | .importReceivedCard =>
    a.pendingPeerCard.isSome && (a.importReceivedCard w failure).screen = .home
  | .removePeer key => (a.peers.any fun peer => peer.publicKey = key) && failure.isNone
  | .saveName name minted =>
    a.configureStep ≠ .ready && (a.saveName name minted failure).configureStep = .ready

section Persists

variable (B : Bech32) (J : ConfigJson) (path : String) (op : TrustOp) (a : App τ) (w : Wall)

/-- How saving ends, and what is stored then. What is saved is the application as the operation left
it, and an operation that is refused saves nothing. -/
inductive Persists (prior : Store) : Store → Option String → Prop where
  | refused (h : op.saves a w = false) : Persists prior prior none
  | saved {labels : List SaveLabel} {s : Saving} (h : op.saves a w = true)
    (run : Machine.exec (Saving.step J path ((op.apply a w none).config B)) (.start prior) labels =
      some s)
    (saved : s.phase = .saved) : Persists prior s.store none
  | failed {labels : List SaveLabel} {s : Saving} {e : Error} (h : op.saves a w = true)
    (run : Machine.exec (Saving.step J path ((op.apply a w (some e.display)).config B))
      (.start prior) labels = some s)
    (failed : s.phase = .failed e) : Persists prior s.store (some e.display)

/-- What an operation is for, on the disk. A card is trusted, or none of its key is, or the file has
the name and the card, as the operation says. -/
def OnDisk (s : Store) : Prop :=
  match op with
  | .importPeerCard _ | .importReceivedCard =>
    ∃ card, op.card a = some card ∧ card.encode ∈ s.trusted J
  | .removePeer key =>
    s.trusted J = (a.peers.filter fun peer => peer.publicKey ≠ key).map IdentityCard.encode
  | .saveName name minted => ∃ file card, s.parsed J = some file ∧ minted = some card ∧
    file.myName = some name ∧ file.selfCard = some card.encode

/-- An operation is made in memory and on the disk, or in neither. It is what a user may rely on:
what was reported has been stored, and what failed has changed nothing. -/
structure Atomic (prior store : Store) (failure : Option String) : Prop where
  /-- What is reported as made is on the disk. -/
  success : op.reports a w failure = true → op.OnDisk J a store
  /-- When saving fails, the application is as it was. -/
  restored : failure.isSome = true → (op.apply a w failure).profile = a.profile
  /-- Memory and disk trust the same cards after an error, if they did before. -/
  agree : failure.isSome = true → prior.trusted J = a.peers.map IdentityCard.encode →
    store.trusted J = (op.apply a w failure).peers.map IdentityCard.encode

/-- There is nothing that an operation has to change: the card is on the list and on the disk, or
the name and the card are the ones there are. -/
def AlreadyMade (prior : Store) : Prop :=
  match op with
  | .importPeerCard _ | .importReceivedCard => ∃ card, op.card a = some card ∧
    a.peers.find? (fun peer => peer.publicKey = card.publicKey) = some card ∧
    card.encode ∈ prior.trusted J
  | .removePeer _ => False
  | .saveName name minted => a.savedName = some name ∧ a.selfCard = minted

end Persists

end TrustOp

/-! ## What an operation changes -/

/-- A card that replaces itself leaves a list as it is. -/
lemma modify_findIdx_eq_self (peers : List IdentityCard) (card : IdentityCard) :
    (peers.modify (peers.findIdx fun peer => peer.publicKey = card.publicKey) fun _ => card) =
        peers ↔
      ∀ peer, peers.find? (fun peer => peer.publicKey = card.publicKey) = some peer →
        peer = card := by
  induction peers with
  | nil => simp
  | cons peer peers ih =>
    rw [List.findIdx_cons, List.find?_cons]
    by_cases h : peer.publicKey = card.publicKey
    · simp [h, eq_comm]
    · simpa [h] using ih

/-- Storing a card changes a list, unless this very card is there.

**Proof sketch.** If the key is on the list, its card is exchanged in place, which changes nothing
only for an equal card. If it is not, the list grows. -/
lemma stored_eq_self_iff {peers : List IdentityCard} {card : IdentityCard} :
    stored peers card = peers ↔
      peers.find? (fun peer => peer.publicKey = card.publicKey) = some card := by
  unfold stored
  split_ifs with hany
  · rw [modify_findIdx_eq_self]
    obtain ⟨peer, hpeer⟩ : ∃ peer,
        peers.find? (fun peer => peer.publicKey = card.publicKey) = some peer := by
      rw [← Option.isSome_iff_exists, List.find?_isSome]
      simpa using hany
    rw [hpeer, Option.some.injEq]
    exact ⟨fun h => h peer rfl, fun h _ hp => (Option.some.inj hp).symm.trans h⟩
  · have hnone : peers.find? (fun peer => peer.publicKey = card.publicKey) = none := by
      rw [List.find?_eq_none]
      simpa using hany
    rw [hnone]
    exact ⟨fun h => absurd (congrArg List.length h) (by simp), fun h => by cases h⟩

/-- A card that is stored is on the list. -/
lemma mem_stored_self (peers : List IdentityCard) (card : IdentityCard) :
    card ∈ stored peers card := by
  unfold stored
  split_ifs with hany
  · have hlt : (peers.findIdx fun peer => peer.publicKey = card.publicKey) < peers.length :=
      List.findIdx_lt_length_of_exists (by simpa using hany)
    refine List.mem_iff_getElem?.2 ⟨peers.findIdx fun peer => peer.publicKey = card.publicKey, ?_⟩
    rw [List.getElem?_modify, List.getElem?_eq_getElem hlt, Option.map_eq_map, Option.map_some,
      if_pos rfl]
  · exact List.mem_append_right _ List.mem_cons_self

namespace App

/-- Whether a card is stored does not depend on how saving ends. -/
lemma storePeerCard_flag (a : App τ) (w : Wall) (card : IdentityCard) (failure : Option String) :
    (a.storePeerCard w card failure).1 = (a.storePeerCard w card none).1 := by
  unfold storePeerCard
  split_ifs <;> rfl

/-- The card that waits plays no part in whether a card is stored. -/
lemma storePeerCard_flag_pending (a : App τ) (w : Wall) (card : IdentityCard)
    (failure : Option String) (pending : Option IdentityCard) :
    (({ a with pendingPeerCard := pending } : App τ).storePeerCard w card failure).1 =
      (a.storePeerCard w card failure).1 := by
  unfold storePeerCard
  simp only
  split_ifs <;> rfl

/-- A card that is stored changes the trusted list, whatever becomes of saving it. -/
lemma storePeerCard_profile {a : App τ} {w : Wall} {card : IdentityCard}
    (h : (a.storePeerCard w card none).1 = true) (failure : Option String) :
    (a.storePeerCard w card failure).2.profile =
      { a.profile with peers := stored a.peers card } := by
  rcases a.storePeerCard_cases w card failure with ⟨-, -, hstored⟩ | ⟨hflag, -⟩
  · rw [hstored, saveConfigureConfig_profile]
    rfl
  · rw [storePeerCard_flag, h] at hflag
    cases hflag

/-- The screen after confirming the card that waits says whether it was stored. -/
lemma importReceivedCard_screen {a : App τ} {w : Wall} {card : IdentityCard}
    (hpending : a.pendingPeerCard = some card) (failure : Option String) :
    (a.importReceivedCard w failure).screen = .home ↔ (a.storePeerCard w card none).1 = true := by
  have hflag := (a.storePeerCard_flag_pending w card failure none).trans
    (a.storePeerCard_flag w card failure)
  unfold importReceivedCard
  rw [hpending]
  simp only
  generalize storePeerCard _ w card failure = r at hflag ⊢
  obtain ⟨flag, b⟩ := r
  cases flag with
  | true => exact ⟨fun _ => hflag.symm, fun _ => rfl⟩
  | false => exact ⟨fun h => (by cases h), fun h => by rw [← hflag] at h; cases h⟩

/-- Confirming the card that waits stores it. -/
lemma importReceivedCard_profile {a : App τ} {w : Wall} {card : IdentityCard}
    (hpending : a.pendingPeerCard = some card) (h : (a.storePeerCard w card none).1 = true)
    (failure : Option String) : (a.importReceivedCard w failure).profile =
      { a.profile with peers := stored a.peers card } := by
  have hprofile := storePeerCard_profile ((a.storePeerCard_flag_pending w card none none).trans h)
    failure
  unfold importReceivedCard
  rw [hpending]
  simp only
  generalize storePeerCard _ w card failure = r at hprofile ⊢
  obtain ⟨flag, b⟩ := r
  cases flag <;> exact hprofile

/-- Untrusting a device takes its card off the list.

**Proof sketch.** By the branches of the function. Clearing the boxes and saving leave the profile
alone. -/
lemma removePeer_profile (a : App τ) (key : PublicKey) (failure : Option String) :
    (a.removePeer key failure).profile =
      { a.profile with peers := a.peers.filter fun peer => peer.publicKey ≠ key } := by
  simp only [removePeer]
  split_ifs
  · rfl
  · rw [saveConfigureConfig_profile]
    rfl
  · rw [saveConfigureConfig_profile]
    rfl
  · rw [saveConfigureConfig_profile]
    rfl
  · rw [saveConfigureConfig_profile]
    rfl

/-- Naming the device changes the name and the own card, whatever becomes of saving them, -/
lemma saveName_profile {name : String} (hname : validateName name = .ok ()) (a : App τ)
    (card : IdentityCard) (failure : Option String) :
      (a.saveName name (some card) failure).profile =
      { a.profile with savedName := some name, selfCard := some card } := by
  simp only [saveName, hname]
  cases failure <;> rfl

/-- and stays on the naming screen if that fails. -/
lemma saveName_configureStep_of_failure (a : App τ) (name : String) (minted : Option IdentityCard)
    (e : String) : (a.saveName name minted (some e)).configureStep = a.configureStep := by
  unfold saveName
  split <;> rfl

end App

/-- A save that fails leaves the file as it was. -/
lemma Saving.file_of_failed {J : ConfigJson} {path : String} {cfg : Config} {prior : Store}
    {labels : List SaveLabel} {s : Saving} {e : Error}
    (hrun : Machine.exec (step J path cfg) (.start prior) labels = some s)
    (hfailed : s.phase = .failed e) : s.store.file = prior.file := by
  have hinv : s.Inv J cfg prior := Machine.reachable_invariant
    (I := fun s : Saving => s.Inv J cfg prior) (Inv.start cfg prior)
    (fun _ _ _ h hstep => h.step hstep) ⟨labels, hrun⟩
  rcases hinv.failed e hfailed with h | h
  · rw [h]
  · exact h.2

/-- A save that succeeds leaves what was saved in the file. -/
lemma Saving.parsed_of_saved {J : ConfigJson} (hJ : J.Lawful) {path : String} {cfg : Config}
    {prior : Store} {labels : List SaveLabel} {s : Saving}
    (hrun : Machine.exec (step J path cfg) (.start prior) labels = some s)
    (hsaved : s.phase = .saved) : s.store.parsed J = some cfg.toConfigFile := by
  obtain ⟨-, content, hjson, hfile⟩ := (reachable hrun).2 hsaved
  rw [Store.parsed, hfile, Option.bind_some, hJ _ _ hjson]
  rfl

namespace TrustOp

variable {B : Bech32} {J : ConfigJson} {path : String} {op : TrustOp} {a : App τ} {w : Wall}

/-- What an operation that saves makes of the profile. It says so by the operation alone, whatever
becomes of the save after it. -/
def made (op : TrustOp) (a : App τ) : Profile :=
  match op with
  | .importPeerCard _ | .importReceivedCard => match op.card a with
    | some card => { a.profile with peers := stored a.peers card }
    | none => a.profile
  | .removePeer key => { a.profile with peers := a.peers.filter fun peer => peer.publicKey ≠ key }
  | .saveName name minted => { a.profile with savedName := some name, selfCard := minted }

/-- What is made of a card by an operation is the profile with the card among the peers. -/
lemma made_of_card {card : IdentityCard} (h : op.card a = some card) :
    op.made a = { a.profile with peers := stored a.peers card } := by
  cases op with
  | importPeerCard pasted =>
    obtain rfl : pasted = some card := h
    rfl
  | importReceivedCard =>
    have hpending : a.pendingPeerCard = some card := h
    simp only [made, TrustOp.card, hpending]
  | removePeer key => cases h
  | saveName name minted => cases h

/-- An operation that saves changes the profile, whatever becomes of saving it.

**Proof sketch.** By the operation: each is the action of the application, whose effect on the
profile is known. -/
lemma apply_profile (h : op.saves a w = true) (failure : Option String) :
    (op.apply a w failure).profile = op.made a := by
  cases op with
  | importPeerCard pasted =>
    obtain ⟨card, rfl, hstored⟩ := (Option.any_eq_true _ _).1 h
    exact App.storePeerCard_profile hstored failure
  | importReceivedCard =>
    obtain ⟨card, hpending, hstored⟩ := (Option.any_eq_true _ _).1 h
    rw [made_of_card hpending]
    exact App.importReceivedCard_profile hpending hstored failure
  | removePeer key => exact a.removePeer_profile key failure
  | saveName name minted =>
    simp only [saves, Bool.and_eq_true] at h
    obtain ⟨hname, hminted⟩ := h
    obtain ⟨card, rfl⟩ := Option.isSome_iff_exists.1 hminted
    have hvalid : validateName name = .ok () := by
      cases hv : validateName name with
      | ok u => rfl
      | error e =>
        rw [hv] at hname
        cases hname
    exact App.saveName_profile hvalid a card failure

/-- An operation that is refused reports nothing.

**Proof sketch.** By cases on the operation: nothing is reported of a card that is not stored, of a
peer that is not there, or of a name that is not valid. -/
lemma reports_of_refused (h : op.saves a w = false) (failure : Option String) :
    op.reports a w failure = false := by
  cases op with
  | importPeerCard pasted =>
    cases pasted with
    | none => rfl
    | some card => exact (a.storePeerCard_flag w card failure).trans h
  | importReceivedCard =>
    cases hpending : a.pendingPeerCard with
    | none => simp [reports, hpending]
    | some card =>
      have hflag : (a.storePeerCard w card none).1 = false := by
        simpa [saves, TrustOp.card, hpending] using h
      have hscreen : (a.importReceivedCard w failure).screen ≠ .home := by
        rw [Ne, App.importReceivedCard_screen hpending, hflag]
        exact Bool.false_ne_true
      simp [reports, hscreen]
  | removePeer key =>
    have hnone : (a.peers.any fun peer => peer.publicKey = key) = false := h
    simp only [reports, hnone, Bool.false_and]
  | saveName name minted =>
    have hsame : a.saveName name minted failure = a := by
      simp only [saves, Bool.and_eq_false_iff] at h
      unfold App.saveName
      split
      · rename_i card hname
        rw [hname] at h
        rcases h with h | h <;> cases h
      · rfl
    simp [reports, hsame]

/-- What an operation that was saved is for, is on the disk.

**Proof sketch.** The file holds the profile that the operation has made. A card that is imported is
on its list, and a name and its card are in its fields. -/
lemma onDisk_of_saved (h : op.saves a w = true) {s : Store}
    (hs : s.parsed J = some ((op.apply a w none).config B).toConfigFile) : op.OnDisk J a s := by
  have hprofile := apply_profile h none
  have htrusted : s.trusted J = (op.made a).peers.map IdentityCard.encode := by
    rw [← hprofile, Store.trusted, hs]
    rfl
  have himported : ∀ card, op.card a = some card → card.encode ∈ s.trusted J := by
    intro card hcard
    rw [htrusted, made_of_card hcard]
    exact List.mem_map_of_mem (mem_stored_self a.peers card)
  cases op with
  | importPeerCard pasted =>
    obtain ⟨card, rfl, -⟩ := (Option.any_eq_true _ _).1 h
    exact ⟨card, rfl, himported card rfl⟩
  | importReceivedCard =>
    obtain ⟨card, hpending, -⟩ := (Option.any_eq_true _ _).1 h
    exact ⟨card, hpending, himported card hpending⟩
  | removePeer key => exact htrusted
  | saveName name minted =>
    simp only [saves, Bool.and_eq_true] at h
    obtain ⟨card, rfl⟩ := Option.isSome_iff_exists.1 h.2
    refine ⟨_, card, hs, rfl, congrArg Profile.savedName hprofile, ?_⟩
    exact congrArg (fun p : Profile => p.selfCard.map IdentityCard.encode) hprofile

/-- An imported card is on the disk if the disk trusts it. -/
lemma onDisk_of_card {card : IdentityCard} (h : op.card a = some card) {s : Store} :
    op.OnDisk J a s ↔ card.encode ∈ s.trusted J := by
  have himported : (∃ card', op.card a = some card' ∧ card'.encode ∈ s.trusted J) ↔
      card.encode ∈ s.trusted J := by
    rw [h]
    simp
  cases op with
  | importPeerCard pasted => exact himported
  | importReceivedCard => exact himported
  | removePeer key => cases h
  | saveName name minted => cases h

/-- There is nothing to change for an operation that saves, if it leaves the profile as it was, and
the card it imports is on the disk.

**Proof sketch.** By cases on the operation. A card is stored as it is exactly if it is in the list
already, and a peer is removed without a change if it is not there. -/
lemma alreadyMade_iff (h : op.saves a w = true) {prior : Store} : op.AlreadyMade J a prior ↔
    op.made a = a.profile ∧ ∀ card, op.card a = some card → card.encode ∈ prior.trusted J := by
  have himported : ∀ card, op.card a = some card →
      ((∃ card', op.card a = some card' ∧
          a.peers.find? (fun peer => peer.publicKey = card'.publicKey) = some card' ∧
          card'.encode ∈ prior.trusted J) ↔
        op.made a = a.profile ∧
          ∀ card', op.card a = some card' → card'.encode ∈ prior.trusted J) := by
    intro card hcard
    have hpeers : ({ a.profile with peers := stored a.peers card } : Profile) = a.profile ↔
        stored a.peers card = a.peers :=
      ⟨fun heq => congrArg Profile.peers heq, fun heq => by rw [heq]; rfl⟩
    rw [made_of_card hcard, hpeers, stored_eq_self_iff, hcard]
    simp
  cases op with
  | importPeerCard pasted =>
    obtain ⟨card, rfl, -⟩ := (Option.any_eq_true _ _).1 h
    exact himported card rfl
  | importReceivedCard =>
    obtain ⟨card, hpending, -⟩ := (Option.any_eq_true _ _).1 h
    exact himported card hpending
  | removePeer key =>
    refine ⟨False.elim, fun ⟨heq, _⟩ => ?_⟩
    have hpeers : (a.peers.filter fun peer => peer.publicKey ≠ key) = a.peers :=
      congrArg Profile.peers heq
    rw [List.filter_eq_self] at hpeers
    obtain ⟨peer, hpeer, hkey⟩ := List.any_eq_true.1 h
    simpa [of_decide_eq_true hkey] using hpeers peer hpeer
  | saveName name minted =>
    constructor
    · rintro ⟨hname, hcard⟩
      refine ⟨?_, fun card hnone => by cases hnone⟩
      simp only [made, ← hname, ← hcard]
      rfl
    · rintro ⟨heq, -⟩
      exact ⟨(congrArg Profile.savedName heq).symm, (congrArg Profile.selfCard heq).symm⟩

/-- Of the operations whose save fails, those that import a card report that they were made.

**Proof sketch.** By the operation. The two imports report that they stored the card before they
know what became of saving it. -/
lemma reports_of_failed (h : op.saves a w = true) (e : String) :
    op.reports a w (some e) = true ↔ (op.card a).isSome = true := by
  cases op with
  | importPeerCard pasted =>
    obtain ⟨card, rfl, hstored⟩ := (Option.any_eq_true _ _).1 h
    exact iff_of_true ((a.storePeerCard_flag w card (some e)).trans hstored) rfl
  | importReceivedCard =>
    obtain ⟨card, hpending, hstored⟩ := (Option.any_eq_true _ _).1 h
    have hpending' : a.pendingPeerCard = some card := hpending
    have hscreen := (App.importReceivedCard_screen hpending' (some e)).2 hstored
    rw [reports, hscreen, hpending, hpending']
    exact iff_of_true rfl rfl
  | removePeer key => simp [reports, TrustOp.card]
  | saveName name minted =>
    have hstep := a.saveName_configureStep_of_failure name minted e
    simp [reports, TrustOp.card, hstep]

/-- **An operation is atomic if its save does not fail, or there is nothing that it has to change.**
Otherwise the change stays in memory when its save fails, and a card is reported as stored.

**Proof sketch.** A refused operation changes nothing, and a saved one is on the disk. A failed one
has changed what is in memory, and has reported it, so it is atomic only if there was nothing to
change and what it reports is on the disk already. -/
theorem atomic_iff (hJ : J.Lawful) {prior store : Store} {failure : Option String}
    (h : op.Persists B J path a w prior store failure) :
    op.Atomic J a w prior store failure ↔ failure = none ∨ op.AlreadyMade J a prior := by
  cases h with
  | refused hrefused =>
    refine iff_of_true ⟨fun hreports => ?_, fun hfailed => ?_, fun hfailed => ?_⟩ (Or.inl rfl)
    · rw [reports_of_refused hrefused] at hreports
      cases hreports
    · cases hfailed
    · cases hfailed
  | saved hsaves hrun hsaved =>
    refine iff_of_true ⟨fun _ => ?_, fun hfailed => ?_, fun hfailed => ?_⟩ (Or.inl rfl)
    · exact onDisk_of_saved hsaves (Saving.parsed_of_saved hJ hrun hsaved)
    · cases hfailed
    · cases hfailed
  | @failed labels s e hsaves hrun hfailed =>
    have hfile := Saving.file_of_failed hrun hfailed
    have hparsed : s.store.parsed J = prior.parsed J := by rw [Store.parsed, hfile, Store.parsed]
    have htrusted : s.store.trusted J = prior.trusted J := by
      rw [Store.trusted, hparsed, Store.trusted]
    have hprofile := apply_profile hsaves (some e.display)
    constructor
    · intro hatomic
      have hsame := hprofile.symm.trans (hatomic.restored rfl)
      refine Or.inr ((alreadyMade_iff hsaves).2 ⟨hsame, fun card hcard => ?_⟩)
      have hreports : op.reports a w (some e.display) = true :=
        (reports_of_failed hsaves _).2 (by rw [hcard]; rfl)
      exact htrusted ▸ (onDisk_of_card hcard).1 (hatomic.success hreports)
    · rintro (hnone | halready)
      · cases hnone
      · obtain ⟨hsame, hdisk⟩ := (alreadyMade_iff hsaves).1 halready
        have hkept := hprofile.trans hsame
        refine ⟨fun hreports => ?_, fun _ => hkept, fun _ hagree => ?_⟩
        · obtain ⟨card, hcard⟩ :=
            Option.isSome_iff_exists.1 ((reports_of_failed hsaves _).1 hreports)
          exact (onDisk_of_card hcard).2 (htrusted ▸ hdisk card hcard)
        · have hpeers : (op.apply a w (some e.display)).peers = a.peers :=
            congrArg Profile.peers hkept
          rw [htrusted, hagree, hpeers]

section Sample

/-- A device that asks its user about a card, -/
def sampleAsked : App Unit :=
  { App.init .lanOnly ⟨App.sampleKey 1⟩ (some "desk") App.sampleSuffix
      (some (App.sampleCard 1)) [] with
    screen := .cardConfirm
    pendingPeerCard := some (App.sampleCard 2) }

/-- the file with the card, -/
def sampleText : String :=
  ((importReceivedCard.apply sampleAsked App.sampleWall none).config .standard).text

/-- and what is stored before. -/
def sampleStored : Store :=
  ⟨some (Bech32.standard.toNsec ⟨App.sampleKey 1⟩), some (sampleAsked.config .standard).text, none⟩

/-- **A card is trusted and reported as stored, and is not saved.** The user confirms a card, and
the credential store is locked. The application is back on its hub with the card on its list, which
the disk does not have.

**Proof sketch.** The save stops at the credential store, so the file is as it was. The card is
among the peers nevertheless, the screen is the first one, and the operation reports that it has
stored the card. -/
theorem trust_without_saving : ConfigJson.pretty.Lawful ∧ ∃ failure,
    importReceivedCard.Persists .standard .pretty "config.json" sampleAsked App.sampleWall
      sampleStored sampleStored failure ∧
    importReceivedCard.reports sampleAsked App.sampleWall failure = true ∧
    (importReceivedCard.apply sampleAsked App.sampleWall failure).screen = .home ∧
    (importReceivedCard.apply sampleAsked App.sampleWall failure).peers = [App.sampleCard 2] ∧
    sampleStored.trusted .pretty = [] ∧
    ¬ importReceivedCard.Atomic .pretty sampleAsked App.sampleWall sampleStored sampleStored
      failure := by
  let e : Error := (Error.msg "locked").context "storing the identity key for config.json"
  have hrun : Machine.exec (Saving.step .pretty "config.json"
      ((importReceivedCard.apply sampleAsked App.sampleWall (some e.display)).config .standard))
      (.start sampleStored) [.fails (.msg "locked")] = some ⟨sampleStored, .failed e⟩ := rfl
  have hpersists : importReceivedCard.Persists .standard .pretty "config.json" sampleAsked
      App.sampleWall sampleStored sampleStored (some e.display) :=
    .failed rfl hrun rfl
  have hpeers : (importReceivedCard.apply sampleAsked App.sampleWall (some e.display)).peers =
      [App.sampleCard 2] := rfl
  have hread : ConfigJson.pretty.fromJson (sampleAsked.config .standard).text =
      .ok (sampleAsked.config .standard).toConfigFile :=
    ConfigJson.pretty_lawful _ _ (ConfigJson.toJson_pretty (by decide))
  have htrusted : sampleStored.trusted .pretty = [] := Store.trusted_of_read rfl hread
  refine ⟨ConfigJson.pretty_lawful, some e.display, hpersists, rfl, rfl, hpeers, htrusted,
    fun hatomic => ?_⟩
  have hkept := congrArg Profile.peers (hatomic.restored rfl)
  change (importReceivedCard.apply sampleAsked App.sampleWall (some e.display)).peers = [] at hkept
  rw [hpeers] at hkept
  cases hkept

/-- With a credential store that answers, the card is on the disk as well.

**Proof sketch.** The save of the application's configuration is run to its end, and the theorem is
applied to what it leaves. -/
theorem atomic_iff_sample : ∃ store,
    importReceivedCard.Persists .standard .pretty "config.json" sampleAsked App.sampleWall
      sampleStored store none ∧
    importReceivedCard.Atomic .pretty sampleAsked App.sampleWall sampleStored store none := by
  let s : Saving :=
    ⟨⟨some (Bech32.standard.toNsec ⟨App.sampleKey 1⟩), some sampleText, none⟩, .saved⟩
  have hjson := @ConfigJson.toJson_pretty
    ((importReceivedCard.apply sampleAsked App.sampleWall none).config .standard).toConfigFile
    (by decide)
  have hrun : Machine.exec (Saving.step .pretty "config.json"
      ((importReceivedCard.apply sampleAsked App.sampleWall none).config .standard))
      (.start sampleStored) (Saving.undisturbed sampleText) = some s :=
    Saving.completes hjson _
  have hpersists : importReceivedCard.Persists .standard .pretty "config.json" sampleAsked
      App.sampleWall sampleStored s.store none := .saved rfl hrun rfl
  exact ⟨s.store, hpersists, (atomic_iff ConfigJson.pretty_lawful hpersists).2 (Or.inl rfl)⟩

end Sample

end TrustOp

end Duocb
