import Mathlib.Data.List.Induction
import Duocb.Library.Machine
import Duocb.Lan.Ipv4
import Duocb.Net

set_option relaxedAutoImplicit false
set_option autoImplicit false

/-!
# The application state

The state behind the user interface: what the events of the runtime and the actions of the user do
to it, and the commands it sends. An action is available only where the screens and the shortcuts
offer it.

A peer is named by its application key. The type `τ` is the type of the time stamps that clipboard
items carry; nothing reads them.

## Main definitions

* `Duocb.App` — the state; `App.init` is the one a launched application starts in.
* `Duocb.App.applyEvent` — what an event of the runtime changes.
* `Duocb.App.startClipboardSession`, `Duocb.App.stopSession`, `Duocb.App.sendText` and the other
  actions — the new state, with the commands that go to the runtime.
* `Duocb.UserAction`, `Duocb.App.act` — all actions, and `App.enabled` when each is offered.

## Main results

* `Duocb.App.inbox_length_le` — the inbox never outgrows its cap.
* `Duocb.App.applyEvent_pulled` — a re-delivery of a text that the inbox holds changes nothing.
* `Duocb.App.mem_inbox_of_last` — the inbox holds the text that was received last.
-/

namespace Duocb

/-- Retention cap for the inbox: newest first, older items are dropped. -/
def MAX_INBOX_ITEMS : ℕ := 5

/-- The most peers that can be trusted. -/
def MAX_TRUSTED_PEERS : ℕ := 128

/-- The relays a configured device uses. -/
def defaultRelays : List String :=
  ["wss://nos.lol", "wss://relay.nostr.net", "wss://relay.primal.net", "wss://relay.snort.social"]

/-- A clipboard item that passed through the session. -/
structure ClipItem (τ : Type) where
  text : String
  timestamp : τ
  deriving DecidableEq

/-- The screens. A session with a peer has one of its own; a card setup goes through the last three.
-/
inductive Screen where
  | home
  | session
  | cardSetup
  | cardPairing
  | cardConfirm
  deriving DecidableEq

/-- The steps of the home screen. The first three set a device up; after that it is ready, and picks
the peer it connects to. -/
inductive ConfigureStep where
  | setupChoice
  | setupImport
  | setupName
  | ready
  | connect
  deriving DecidableEq

/-- The application state. It holds what the configuration keeps, what the screens show, and what
the running session has reported; `τ` is the type of the time stamps of the items. -/
structure App (τ : Type) where
  screen : Screen
  status : ConnStatus
  error : Option String
  signalChannel : SignalChannel
  identity : Identity
  savedName : Option String
  /-- The permanent suffix of this installation. -/
  deviceSuffix : String
  selfCard : Option IdentityCard
  configureStep : ConfigureStep
  peers : List IdentityCard
  selectedPeer : Option PublicKey
  /-- The name of the device the running or last session is with. -/
  sessionPeer : Option String
  /-- The question whether to reset the identity is up. -/
  confirmResetIdentity : Bool
  /-- A session is running. Cleared when the runtime reports that it is idle. -/
  sessionActive : Bool
  /-- Whether the running session's setup half is this device's. -/
  sessionHosting : Bool
  nodeId : Option String
  hostLanIp : Option String
  identityPublicKey : Option PublicKey
  pinDisplay : Option String
  /-- The peer's card, waiting on the user's pairing-code check. -/
  pendingPeerCard : Option IdentityCard
  peerNodeId : Option String
  connPath : Option (List String)
  inbox : List (ClipItem τ)
  /-- The last item successfully sent. -/
  outbox : Option (ClipItem τ)
  /-- Which peer's clipboard content the two boxes hold. -/
  boxPeer : Option PublicKey
  /-- Text handed to the runtime, promoted to the outbox once the send is confirmed. -/
  pendingOutbox : Option String
  deriving DecidableEq

/-- What an action reads of its surroundings: the clock, and dates in the local time zone. -/
structure Wall where
  now : ℕ
  localDate : ℕ → String

/-- A card this close to expiry is minted again. -/
def CARD_RENEW_BEFORE_SECS : ℕ := 7 * 24 * 60 * 60

/-- Seconds of life left in a card; zero whenever it is unusable. -/
def Wall.remainingSecs (w : Wall) (card : IdentityCard) : ℕ :=
  if card.isValidAt w.now then card.notAfter - w.now else 0

/-- The card's window, judged against the clock. -/
def Wall.isExpired (w : Wall) (card : IdentityCard) : Bool := !card.isValidAt w.now

namespace App

variable {τ : Type}

/-- The state of a launched application, with what its configuration holds. Cards of the own key are
left out, and at most as many are kept as may be trusted. A device that has a name and a card is
ready at once. -/
def init (channel : SignalChannel) (identity : Identity) (savedName : Option String)
    (deviceSuffix : String) (selfCard : Option IdentityCard) (peers : List IdentityCard) :
    App τ where
  screen := .home
  status := .idle
  error := none
  signalChannel := channel
  identity := identity
  savedName := savedName
  deviceSuffix := deviceSuffix
  selfCard := selfCard
  configureStep := if savedName.isSome ∧ selfCard.isSome then .ready else .setupChoice
  peers := (peers.filter fun card => card.publicKey ≠ identity.publicKey).take MAX_TRUSTED_PEERS
  selectedPeer := none
  sessionPeer := none
  confirmResetIdentity := false
  sessionActive := false
  sessionHosting := false
  nodeId := none
  hostLanIp := none
  identityPublicKey := none
  pinDisplay := none
  pendingPeerCard := none
  peerNodeId := none
  connPath := none
  inbox := []
  outbox := none
  boxPeer := none
  pendingOutbox := none

/-! ## Events -/

/-- What an event of the runtime changes. `now` stamps the items it creates. Most events only report
something. An idle one ends the session on the screen, and an item goes to the top of the inbox,
unless it was pulled and the inbox has its text already. -/
def applyEvent (a : App τ) (now : τ) : NetEvent → App τ
  | .serverReady nodeId key | .clientReady nodeId key =>
    { a with nodeId := some nodeId, identityPublicKey := key }
  | .pinRotated pin _ hostLanIp => { a with pinDisplay := some pin, hostLanIp := hostLanIp }
  | .pinCleared => { a with pinDisplay := none }
  | .peerCardReceived card =>
    if card.publicKey = a.identity.publicKey then
      { a with
        error := some "The other side sent back this device's own card"
        screen := .cardSetup }
    else { a with pendingPeerCard := some card, screen := .cardConfirm }
  | .status .idle =>
    -- session ended: the boxes are kept, a never-confirmed pending send is dropped
    { a with
      sessionActive := false
      nodeId := none
      hostLanIp := none
      identityPublicKey := none
      pinDisplay := none
      peerNodeId := none
      connPath := none
      pendingOutbox := none
      status := .idle }
  | .status status => { a with status := status }
  | .peerPaired peerNodeId _ => { a with peerNodeId := some peerNodeId }
  | .peerDisconnected => { a with peerNodeId := none, connPath := none, pendingOutbox := none }
  | .connPath paths => { a with connPath := some paths }
  | .itemReceived text pulled =>
    if pulled ∧ a.inbox.any (fun item => item.text = text) then a
    else { a with inbox := (⟨text, now⟩ :: a.inbox).take MAX_INBOX_ITEMS }
  | .itemSent =>
    match a.pendingOutbox with
    | some text => { a with pendingOutbox := none, outbox := some ⟨text, now⟩ }
    | none => a
  | .error message => { a with pendingOutbox := none, error := some message }

/-! ## The boxes -/

/-- Send a text to the peer. One in-flight send at a time, like the outbox slot. -/
def sendText (a : App τ) (text : String) : App τ × List UiCommand :=
  if text = "" ∨ a.pendingOutbox.isSome then (a, [])
  else ({ a with pendingOutbox := some text }, [.sendClipboard text])

/-- Send what the system clipboard holds, if it could be read. An empty text is refused with an
error, and while a text waits for its confirmation nothing is sent. -/
def sendClipboard (a : App τ) (read : Except String String) : App τ × List UiCommand :=
  match read with
  | .ok text =>
    if text = "" then ({ a with error := some "The clipboard is empty" }, [])
    else if a.pendingOutbox.isSome then (a, [])
    else a.sendText text
  | .error e => ({ a with error := some ("Could not read the clipboard: " ++ e) }, [])

/-- Drop every clipboard item held for a peer, along with any unconfirmed send. -/
def clearPeerBoxes (a : App τ) : App τ :=
  { a with inbox := [], outbox := none, pendingOutbox := none, boxPeer := none }

/-! ## Identity and trusted devices -/

/-- The settings are saved; a failure is reported. -/
def saveConfigureConfig (a : App τ) (failure : Option String) : App τ :=
  match failure with
  | none => a
  | some e => { a with error := some ("Could not save the settings: " ++ e) }

/-- Start over with a fresh identity. The name, the own card and the trusted cards went with the old
identity; nothing is saved before the new one has a name. -/
def beginGenerateIdentity (a : App τ) (fresh : Identity) : App τ :=
  { a with
    identity := fresh
    savedName := none
    selfCard := none
    peers := []
    configureStep := .setupName }

/-- Start over with an imported identity. It replaces what the configuration held, and is saved at
once. Nothing changes if the text was no key. -/
def useImportedIdentity (a : App τ) (imported : Option Identity) (failure : Option String) :
    App τ :=
  match imported with
  | some identity => saveConfigureConfig
      { a with
        identity := identity
        savedName := none
        selfCard := none
        peers := []
        configureStep := .setupName } failure
  | none => a

/-- Name this device. `minted` is the card for the name, if one could be minted. The name and the
card are saved together; when that fails the step stays. A name that is not valid changes nothing.
-/
def saveName (a : App τ) (name : String) (minted : Option IdentityCard) (failure : Option String) :
    App τ :=
  match validateName name, minted with
  | .ok (), some card =>
    let b := { a with savedName := some name, selfCard := some card }
    match failure with
    | none => { b with configureStep := .ready }
    | some _ => saveConfigureConfig b failure
  | _, _ => a

/-- Replace the identity and forget everything that belongs to it. -/
def resetIdentity (a : App τ) (fresh : Identity) (failure : Option String) : App τ :=
  let b := clearPeerBoxes
    { a with identity := fresh, savedName := none, selfCard := none, peers := [],
             selectedPeer := none }
  { saveConfigureConfig b failure with configureStep := .setupChoice }

/-- The standing identity, available once a card is there. -/
def keyIdentity (a : App τ) : Option KeyIdentity :=
  a.selfCard.map fun selfCard => ⟨a.identity, selfCard, a.peers, defaultRelays⟩

/-- The card of the selected peer. -/
def selectedPeerCard (a : App τ) : Option IdentityCard :=
  a.selectedPeer.bind fun key => a.peers.find? fun peer => peer.publicKey = key

/-- Select a peer, or unselect it. -/
def togglePeer (a : App τ) (key : PublicKey) : App τ :=
  { a with selectedPeer := if a.selectedPeer = some key then none else some key }

/-- Where the selection goes from the current position, if it is on the list. -/
def nextSelection (count : ℕ) (current : Option ℕ) (delta : Int) : ℕ :=
  match current with
  | none => if delta > 0 then 0 else count - 1
  | some i => ((i + delta) % count).toNat

/-- Move the selection up or down. -/
def movePeerSelection (a : App τ) (delta : Int) : App τ :=
  let current := a.selectedPeer.bind fun key => a.peers.findIdx? fun peer => peer.publicKey = key
  match a.peers[nextSelection a.peers.length current delta]? with
  | none => a
  | some peer => { a with selectedPeer := some peer.publicKey }

/-- Copy something to the system clipboard; a failure is reported. -/
def copyToClipboard (a : App τ) (failure : Option String) : App τ :=
  match failure with
  | none => a
  | some e => { a with error := some ("Could not write the clipboard: " ++ e) }

/-- Why a card outside its window cannot be imported. -/
def unusableCardMessage (w : Wall) (card : IdentityCard) (remedy : String) : String :=
  if card.isNotYetValidAt w.now then
    "That identity card is not valid until " ++ w.localDate card.notBefore ++
      " — check the clock on this device and on the other one"
  else "That identity card expired on " ++ w.localDate card.notAfter ++ " — " ++ remedy

/-- Add a verified card to the trusted list, replacing any existing entry for the same key. The own
card, an expired one and one too many are refused with an error. A card of a key that is trusted
already takes the place of the old one. -/
def storePeerCard (a : App τ) (w : Wall) (card : IdentityCard) (failure : Option String) :
    Bool × App τ :=
  if card.publicKey = a.identity.publicKey then
    (false, { a with error := some "That is this device's own identity card" })
  else if w.isExpired card then
    let message := unusableCardMessage w card "get a fresh one from the other device"
    (false, { a with error := some message })
  else if a.peers.any (fun peer => peer.publicKey = card.publicKey) then
    -- the first entry with that key, in place
    let peers := a.peers.modify (a.peers.findIdx fun peer => peer.publicKey = card.publicKey)
      fun _ => card
    (true, saveConfigureConfig { a with peers := peers } failure)
  else if MAX_TRUSTED_PEERS ≤ a.peers.length then
    (false, { a with error := some "The trusted-peer limit is 128" })
  else (true, saveConfigureConfig { a with peers := a.peers ++ [card] } failure)

/-- Import a pasted card. -/
def importPeerCard (a : App τ) (w : Wall) (pasted : Option IdentityCard) (failure : Option String) :
    App τ :=
  match pasted with
  | none => { a with error := some "The pasted identity card is invalid" }
  | some card => (a.storePeerCard w card failure).2

/-- Untrust a device, and drop the content traded with it. Its card leaves the list; if it was
selected, nothing is selected any more, and the boxes are cleared if they were its own. The rest is
saved. -/
def removePeer (a : App τ) (key : PublicKey) (failure : Option String) : App τ :=
  let peers := a.peers.filter fun peer => peer.publicKey ≠ key
  if peers.length = a.peers.length then { a with peers := peers }
  else
    let b := { a with
      peers := peers
      selectedPeer := if a.selectedPeer = some key then none else a.selectedPeer }
    saveConfigureConfig (if b.boxPeer = some key then b.clearPeerBoxes else b) failure

/-! ## Sessions -/

/-- Whether a session ended on its own and can be started again in place. -/
def retryAvailable (a : App τ) : Bool := !a.sessionActive && a.sessionPeer.isSome

/-- Stop whatever session is running. -/
def stopSession (a : App τ) : List UiCommand :=
  if a.sessionActive then [if a.sessionHosting then .stopServer else .disconnect] else []

/-- Navigate back one screen, stopping any running session. A pairing leads back to the card setup,
and so does the confirmation, which gives up the card that arrived. Every other screen leads home.
-/
def goBack (a : App τ) : App τ × List UiCommand :=
  let (screen, pendingPeerCard) := match a.screen with
    | .cardPairing => (Screen.cardSetup, a.pendingPeerCard)
    | .cardConfirm => (.cardSetup, none)
    | _ => (.home, a.pendingPeerCard)
  ({ a with
      sessionPeer := none
      screen := screen
      pendingPeerCard := pendingPeerCard
      configureStep := if a.configureStep = .connect then .ready else a.configureStep },
    a.stopSession)

/-- A replacement for the current card when it is close to expiry. `minted` is the card of this
moment, if one can be minted. -/
def freshlyMintedSelfCard (a : App τ) (w : Wall) (minted : Option IdentityCard) :
    Option IdentityCard :=
  match a.selfCard, a.savedName with
  | some card, some _ => if w.remainingSecs card > CARD_RENEW_BEFORE_SECS then none else minted
  | _, _ => none

/-- Re-mint this device's own card once it is close to expiry. -/
def renewSelfCardIfStale (a : App τ) (w : Wall) (minted : Option IdentityCard)
    (failure : Option String) : App τ :=
  match a.freshlyMintedSelfCard w minted with
  | none => a
  | some fresh => saveConfigureConfig { a with selfCard := some fresh } failure

/-- Open the card-setup screen, with a card that has most of its life left. -/
def openCardSetup (a : App τ) (w : Wall) (minted : Option IdentityCard) (failure : Option String) :
    App τ :=
  if a.selfCard.isNone then a
  else { a.renewSelfCardIfStale w minted failure with screen := .cardSetup }

/-- Show a PIN on this device so the other one can type it. It needs an own card, which is offered
to the device that joins. -/
def hostCardSetup (a : App τ) : App τ × List UiCommand :=
  match a.selfCard with
  | none => (a, [])
  | some selfCard =>
    ({ a with screen := .cardPairing, sessionActive := true, sessionHosting := true },
      [.startServer (.cardSetup selfCard a.signalChannel defaultRelays)])

/-- The card-setup dial, from the PIN entry once normalized and what the entry of the host's address
comes to. An empty entry leaves the lookup to the channels; an address in range is asked directly.
-/
def cardSetupDialSpec (a : App τ) (pin : Option String) (ip : JoinIpOutcome) : Option DialSpec :=
  match pin, ip, a.selfCard with
  | some canonicalPin, .empty, some selfCard =>
    some (.cardSetup canonicalPin selfCard none a.signalChannel defaultRelays)
  | some canonicalPin, .inRange addr, some selfCard =>
    some (.cardSetup canonicalPin selfCard (some addr.toIpAddr) a.signalChannel defaultRelays)
  | _, _, _ => none

/-- What the entries dial is a card setup on the channel of the app, over the default relays. -/
lemma cardSetupDialSpec_eq_some {a : App τ} {pin : Option String} {ip : JoinIpOutcome}
    {spec : DialSpec} (h : a.cardSetupDialSpec pin ip = some spec) :
    ∃ canonicalPin selfCard target, spec =
      .cardSetup canonicalPin selfCard target a.signalChannel defaultRelays := by
  unfold cardSetupDialSpec at h
  split at h
  · exact ⟨_, _, _, (Option.some.inj h).symm⟩
  · exact ⟨_, _, _, (Option.some.inj h).symm⟩
  · cases h

/-- Why there is nothing to dial: the first thing the user has to fix. `label` names the range of
addresses that is accepted. -/
def cardSetupDialProblem (pin : Option String) (ip : JoinIpOutcome) (label : String) : String :=
  match pin, ip with
  | none, _ => "Enter the full eight-character PIN shown on the other device"
  | _, .outOfRange => "IP out of range for " ++ label
  | _, .malformed => "Not a valid IPv4 address"
  | _, _ => "This device has no identity card to offer yet"

/-- Join a card setup: dial what the entries hold. Entries that cannot be dialed are explained on
the screen, and no session starts. -/
def joinCardSetup (a : App τ) (pin : Option String) (ip : JoinIpOutcome) (label : String) :
    App τ × List UiCommand :=
  match a.cardSetupDialSpec pin ip with
  | none => ({ a with error := some (cardSetupDialProblem pin ip label) }, [])
  | some spec =>
    ({ a with sessionActive := true, sessionHosting := false, screen := .cardPairing },
      [.connect spec])

/-- Trust the card that arrived, after the user has compared pairing codes. The card is trusted only
here, and only if it can be stored. The confirmation is over in either case. -/
def importReceivedCard (a : App τ) (w : Wall) (failure : Option String) : App τ :=
  match a.pendingPeerCard with
  | none => a
  | some card =>
    match ({ a with pendingPeerCard := none } : App τ).storePeerCard w card failure with
    | (true, b) => { b with screen := .home, configureStep := .ready }
    | (false, b) => { b with screen := .cardSetup }

/-- Discard the card that arrived. -/
def cancelReceivedCard (a : App τ) : App τ :=
  { a with pendingPeerCard := none, screen := .cardSetup }

/-- How this device joins a clipboard session with the selected peer. -/
def sessionPlan (a : App τ) : Option (Bool × UiCommand) :=
  a.keyIdentity.bind fun identity => a.selectedPeerCard.map fun card =>
    match sessionRole a.identity.publicKey card.publicKey with
    | .host => (true, .startServer (.key identity card.publicKey a.signalChannel))
    | .dial => (false, .connect (.key identity card.publicKey a.signalChannel))

/-- Why a session with a peer whose card is outside its window is refused. A card that is not valid
yet points at a clock that is wrong, and an expired one at a fresh card. The dates are local ones.
-/
def refusedCardMessage (w : Wall) (peer : IdentityCard) : String :=
  if peer.isNotYetValidAt w.now then
    "The identity card for " ++ peer.name ++ " is not valid until " ++ w.localDate peer.notBefore ++
      " — check the clock on this device and on that one"
  else
    "The identity card for " ++ peer.name ++ " expired on " ++ w.localDate peer.notAfter ++
      " — import a fresh card from that device"

/-- Start the clipboard session with the selected peer, whichever half of it this device drew. The
flag says whether it started. -/
def startClipboardSession (a : App τ) (w : Wall) : Bool × App τ × List UiCommand :=
  match a.sessionPlan, a.selectedPeerCard with
  | some (hosting, command), some peer =>
    if w.isExpired peer then (false, { a with error := some (refusedCardMessage w peer) }, [])
    else
      -- the boxes belong to one pair
      let b := if a.boxPeer = some peer.publicKey then a else a.clearPeerBoxes
      (true,
        { b with
          boxPeer := some peer.publicKey
          sessionPeer := some peer.name
          sessionActive := true
          sessionHosting := hosting },
        [command])
  | _, _ => (false, a, [])

/-- Connect to the selected peer from the device picker. The screen follows the session. -/
def connectSelectedPeer (a : App τ) (w : Wall) : App τ × List UiCommand :=
  match a.startClipboardSession w with
  | (true, b, commands) => ({ b with screen := .session }, commands)
  | (false, b, commands) => (b, commands)

/-- Connect to the same peer again after the session gave up. -/
def retryConnection (a : App τ) (w : Wall) : App τ × List UiCommand :=
  if a.retryAvailable then (({ a with error := none } : App τ).startClipboardSession w).2
  else (a, [])

end App

/-! ## All actions -/

/-- What the user can do. An action carries what it reads of the world around: identities and cards
as they are generated, minted and parsed, and why saving or copying fails if it does. -/
inductive UserAction where
  | goBack
  | dismissError
  | beginGenerate (fresh : Identity)
  | openImport
  | cancelSetup
  | useImported (imported : Option Identity) (failure : Option String)
  | rename
  | saveName (name : String) (minted : Option IdentityCard) (failure : Option String)
  | cancelName
  | copyCard (minted : Option IdentityCard) (failure copyFailure : Option String)
  /-- Copy any other text: the private key, a PIN, an item of a box, or the card as it is. -/
  | copyText (copyFailure : Option String)
  | requestResetIdentity
  | resetIdentity (fresh : Identity) (failure : Option String)
  | cancelResetIdentity
  | openConnectPicker
  | closeConnectPicker
  | importPeerCard (pasted : Option IdentityCard) (failure : Option String)
  | togglePeer (key : PublicKey)
  | movePeerSelection (delta : Int)
  | removePeer (key : PublicKey) (failure : Option String)
  | connectSelected
  | openCardSetup (minted : Option IdentityCard) (failure : Option String)
  | hostCardSetup
  | joinCardSetup (pin : Option String) (ip : JoinIpOutcome) (label : String)
  | importReceivedCard (failure : Option String)
  | cancelReceivedCard
  | retryConnect
  | refreshPin
  | sendClipboard (read : Except String String)
  | composeSend (draft : String)
  | clearInbox
  | queryConnPath
  | closeConnPath

namespace App

variable {τ : Type}

/-- Where an action is offered: its screen is shown, and its button or shortcut is live. The two
questions that cover the window are up on any screen. -/
def enabled (a : App τ) : UserAction → Bool
  | .goBack => a.screen ≠ .home
  | .dismissError | .closeConnPath => true
  | .resetIdentity _ _ | .cancelResetIdentity => a.confirmResetIdentity
  | .beginGenerate _ | .openImport => a.screen = .home ∧ a.configureStep = .setupChoice
  | .cancelSetup | .useImported _ _ => a.screen = .home ∧ a.configureStep = .setupImport
  | .saveName _ _ _ => a.screen = .home ∧ a.configureStep = .setupName
  | .cancelName =>
    a.screen = .home ∧ a.configureStep = .setupName ∧ a.savedName.isSome ∧ a.selfCard.isSome
  | .rename | .requestResetIdentity | .copyCard _ _ _ | .openConnectPicker | .importPeerCard _ _
  | .removePeer _ _ | .openCardSetup _ _ => a.screen = .home ∧ a.configureStep = .ready
  | .closeConnectPicker | .togglePeer _ | .movePeerSelection _ | .connectSelected =>
    a.screen = .home ∧ a.configureStep = .connect
  | .hostCardSetup | .joinCardSetup _ _ _ => a.screen = .cardSetup
  | .importReceivedCard _ | .cancelReceivedCard => a.screen = .cardConfirm
  | .retryConnect => a.screen = .session ∧ a.retryAvailable
  | .refreshPin => a.screen = .cardPairing ∧ a.pinDisplay.isSome
  | .sendClipboard _ | .composeSend _ => a.status = .connected
  | .queryConnPath => a.status = .connected ∨ a.connPath.isSome
  | .clearInbox => a.screen = .session ∨ a.status = .connected
  | .copyText _ => (a.screen = .home ∧ a.configureStep = .ready) ∨
    (a.screen = .cardPairing ∧ a.pinDisplay.isSome) ∨ a.screen = .session ∨ a.status = .connected

/-- What an action changes, and the commands it sends. Each action is the callback of the source
under the same name; what it reads from outside (the clipboard, a card that was minted, whether
saving failed) comes with the action. -/
def act (a : App τ) (w : Wall) : UserAction → App τ × List UiCommand
  | .goBack => a.goBack
  | .dismissError => ({ a with error := none }, [])
  | .beginGenerate fresh => (a.beginGenerateIdentity fresh, [])
  | .openImport => ({ a with configureStep := .setupImport }, [])
  | .cancelSetup => ({ a with configureStep := .setupChoice }, [])
  | .useImported imported failure => (a.useImportedIdentity imported failure, [])
  | .rename => ({ a with configureStep := .setupName }, [])
  | .saveName name minted failure => (a.saveName name minted failure, [])
  | .cancelName => ({ a with configureStep := .ready }, [])
  | .copyCard minted failure copyFailure =>
    ((a.renewSelfCardIfStale w minted failure).copyToClipboard copyFailure, [])
  | .copyText copyFailure => (a.copyToClipboard copyFailure, [])
  | .requestResetIdentity => ({ a with confirmResetIdentity := true }, [])
  | .resetIdentity fresh failure =>
    ({ a.resetIdentity fresh failure with confirmResetIdentity := false }, [])
  | .cancelResetIdentity => ({ a with confirmResetIdentity := false }, [])
  | .openConnectPicker => ({ a with configureStep := .connect }, [])
  | .closeConnectPicker => ({ a with configureStep := .ready }, [])
  | .importPeerCard pasted failure => (a.importPeerCard w pasted failure, [])
  | .togglePeer key => (a.togglePeer key, [])
  | .movePeerSelection delta => (a.movePeerSelection delta, [])
  | .removePeer key failure => (a.removePeer key failure, [])
  | .connectSelected => a.connectSelectedPeer w
  | .openCardSetup minted failure => (a.openCardSetup w minted failure, [])
  | .hostCardSetup => a.hostCardSetup
  | .joinCardSetup pin ip label => a.joinCardSetup pin ip label
  | .importReceivedCard failure => (a.importReceivedCard w failure, [])
  | .cancelReceivedCard => (a.cancelReceivedCard, [])
  | .retryConnect => a.retryConnection w
  | .refreshPin => (a, [.refreshPin])
  | .sendClipboard read => a.sendClipboard read
  | .composeSend draft => a.sendText draft
  | .clearInbox => ({ a with inbox := [] }, [])
  | .queryConnPath => (a, [.queryConnPath])
  | .closeConnPath => ({ a with connPath := none }, [])

/-! ## Runs of the application -/

/-- What moves the application: it drains an event, or the user acts. -/
inductive Step (τ : Type) where
  | event (now : τ) (e : NetEvent)
  | action (w : Wall) (u : UserAction)

/-- One step of the application. -/
def step (a : App τ) : Step τ → Option (App τ)
  | .event now e => some (a.applyEvent now e)
  | .action w u => if a.enabled u then some (a.act w u).1 else none

/-- The texts an application received in a run, and whether they were pulled. -/
def received (steps : List (Step τ)) : List (String × Bool) :=
  steps.filterMap fun
    | .event _ (.itemReceived text pulled) => some (text, pulled)
    | _ => none

/-- The step neither clears the inbox nor changes the peer whose content it holds. -/
def Keeps (peer : PublicKey) (a : App τ) : Step τ → Prop
  | .event _ _ => True
  | .action _ .clearInbox => False
  | .action w u => a.boxPeer = some peer ∧ (a.act w u).1.boxPeer = some peer

/-- Only a received item changes the inbox. -/
lemma applyEvent_inbox {a : App τ} {now : τ} {e : NetEvent}
    (he : ∀ text pulled, e ≠ .itemReceived text pulled) : (a.applyEvent now e).inbox = a.inbox := by
  cases e with
  | itemReceived text pulled => exact absurd rfl (he text pulled)
  | peerCardReceived card =>
    simp only [applyEvent]
    split <;> rfl
  | status status => cases status <;> rfl
  | itemSent =>
    simp only [applyEvent]
    split <;> rfl
  | _ => rfl

/-- A received text is in the inbox. -/
lemma mem_inbox_of_received (a : App τ) (now : τ) (text : String) (pulled : Bool) :
    ∃ item ∈ (a.applyEvent now (.itemReceived text pulled)).inbox, item.text = text := by
  simp only [applyEvent]
  split_ifs with h
  · simpa using h.2
  · exact ⟨⟨text, now⟩, by simp [MAX_INBOX_ITEMS], rfl⟩

/-- **A re-delivery of a text that the inbox holds changes nothing.** -/
theorem applyEvent_pulled {a : App τ} {now : τ} {text : String}
    (h : ∃ item ∈ a.inbox, item.text = text) : a.applyEvent now (.itemReceived text true) = a := by
  simp only [applyEvent]
  rw [if_pos]
  simpa using h

/-- **The inbox never outgrows its cap.**

**Proof sketch.** A new item is put in front, and the list is cut to the cap; no other event makes
it longer. -/
theorem inbox_length_le {a : App τ} (h : a.inbox.length ≤ MAX_INBOX_ITEMS) (now : τ) (e : NetEvent) :
    (a.applyEvent now e).inbox.length ≤ MAX_INBOX_ITEMS := by
  by_cases he : ∃ text pulled, e = .itemReceived text pulled
  · obtain ⟨text, pulled, rfl⟩ := he
    simp only [applyEvent]
    split_ifs
    · exact h
    · exact List.length_take_le _ _
  · rw [applyEvent_inbox fun text pulled he' => he ⟨text, pulled, he'⟩]
    exact h

/-- Saving leaves the inbox alone, -/
@[simp] lemma saveConfigureConfig_inbox (a : App τ) (failure : Option String) :
    (a.saveConfigureConfig failure).inbox = a.inbox := by cases failure <;> rfl

/-- and the peer of the boxes. -/
@[simp] lemma saveConfigureConfig_boxPeer (a : App τ) (failure : Option String) :
    (a.saveConfigureConfig failure).boxPeer = a.boxPeer := by cases failure <;> rfl

/-- Copying a text leaves the inbox alone. -/
@[simp] lemma copyToClipboard_inbox (a : App τ) (failure : Option String) :
    (a.copyToClipboard failure).inbox = a.inbox := by cases failure <;> rfl

/-- Renewing the own card leaves the inbox alone. -/
@[simp] lemma renewSelfCardIfStale_inbox (a : App τ) (w : Wall) (minted : Option IdentityCard)
    (failure : Option String) : (a.renewSelfCardIfStale w minted failure).inbox = a.inbox := by
  simp only [renewSelfCardIfStale]
  split <;> simp

/-- Storing a peer's card leaves the inbox alone. -/
lemma storePeerCard_inbox (a : App τ) (w : Wall) (card : IdentityCard) (failure : Option String) :
    (a.storePeerCard w card failure).2.inbox = a.inbox := by
  simp only [storePeerCard]
  split_ifs <;> simp

/-- While the box peer stays the same, only Clear changes the inbox. -/
lemma startClipboardSession_inbox {a : App τ} {w : Wall} {peer : PublicKey}
    (hbox : a.boxPeer = some peer) (hbox' : (a.startClipboardSession w).2.1.boxPeer = some peer) :
    (a.startClipboardSession w).2.1.inbox = a.inbox := by
  unfold startClipboardSession at hbox' ⊢
  split
  · rename_i hosting command card hplan hcard
    simp only [hplan, hcard] at hbox'
    split_ifs at hbox' ⊢ with hexp hsame
    · rfl
    · rfl
    · simp only [Option.some.injEq] at hbox'
      exact absurd (hbox'.symm ▸ hbox) hsame
  · rfl

/-- An action that keeps the peer of the boxes leaves the inbox alone.

**Proof sketch.** By cases on the action; all but clearing the inbox and changing the peer write
other fields. -/
lemma act_inbox {a : App τ} {w : Wall} {u : UserAction} {peer : PublicKey}
    (h : Keeps peer a (.action w u)) : (a.act w u).1.inbox = a.inbox := by
  cases u with
  | clearInbox => exact h.elim
  | useImported imported failure =>
    cases imported with
    | none => rfl
    | some identity => simp [act, useImportedIdentity]
  | saveName name minted failure =>
    simp only [act, saveName]
    split
    · cases failure <;> rfl
    · rfl
  | copyCard minted failure copyFailure => simp [act]
  | copyText copyFailure => simp [act]
  | movePeerSelection delta =>
    simp only [act, movePeerSelection]
    split <;> rfl
  | resetIdentity fresh failure =>
    have := h.2
    simp [act, resetIdentity, clearPeerBoxes] at this
  | importPeerCard pasted failure =>
    cases pasted with
    | none => rfl
    | some card => exact storePeerCard_inbox a w card failure
  | removePeer key failure =>
    have hbox := h.2
    simp only [act, removePeer] at hbox ⊢
    split_ifs at hbox ⊢
    · rfl
    · simp [clearPeerBoxes] at hbox
    · simp [clearPeerBoxes] at hbox
    · simp
    · simp
  | connectSelected =>
    have hbox := h.2
    simp only [act, connectSelectedPeer] at hbox ⊢
    split at hbox <;> rename_i b commands hstart
    all_goals
      have := startClipboardSession_inbox (w := w) h.1 (by rw [hstart]; exact hbox)
      simp only [hstart] at this ⊢
      exact this
  | openCardSetup minted failure =>
    simp only [act, openCardSetup]
    split
    · rfl
    · simp
  | hostCardSetup =>
    simp only [act, hostCardSetup]
    split <;> rfl
  | joinCardSetup pin ip label =>
    simp only [act, joinCardSetup]
    split <;> rfl
  | importReceivedCard failure =>
    simp only [act, importReceivedCard]
    split
    · rfl
    · rename_i card hcard
      have := storePeerCard_inbox ({ a with pendingPeerCard := none } : App τ) w card failure
      split <;> rename_i b hb
      all_goals
        rw [hb] at this
        exact this
  | retryConnect =>
    have hbox := h.2
    simp only [act, retryConnection] at hbox ⊢
    split_ifs at hbox ⊢
    · exact startClipboardSession_inbox (a := { a with error := none }) h.1 hbox
    · rfl
  | sendClipboard read =>
    simp only [act, sendClipboard, sendText]
    split
    · split_ifs <;> rfl
    · rfl
  | composeSend draft =>
    simp only [act, sendText]
    split_ifs <;> rfl
  | _ => rfl

/-- After a run without a Clear or a change of peer, the inbox holds the text that was received
last.

**Proof sketch.** By induction on the run from its end: a received text is put at the head of the
inbox or is in it already, and no other step changes the inbox. -/
lemma mem_inbox_of_last {peer : PublicKey} {a b : App τ} {steps : List (Step τ)}
    (hrun : Machine.exec step a steps = some b) (hkeep : Machine.Meets step (Keeps peer) a steps)
    {text : String} {pulled : Bool} (hlast : (received steps).getLast? = some (text, pulled)) :
    ∃ item ∈ b.inbox, item.text = text := by
  induction steps using List.reverseRecOn generalizing b with
  | nil => simp [received] at hlast
  | append_singleton steps l ih =>
    obtain ⟨c, hc, hl⟩ := Machine.exec_append_eq_some.1 hrun
    obtain ⟨hkeep', hk, -⟩ := hkeep.of_append hc
    replace hl : step c l = some b := by simpa [Option.bind_eq_some_iff] using hl
    cases l with
    | event now e =>
      obtain rfl : c.applyEvent now e = b := Option.some.inj hl
      by_cases he : ∃ text' pulled', e = .itemReceived text' pulled'
      · obtain ⟨text', pulled', rfl⟩ := he
        obtain ⟨rfl, rfl⟩ : text' = text ∧ pulled' = pulled := by
          simpa [received, List.filterMap_append] using hlast
        exact mem_inbox_of_received c now text' pulled'
      · have hne : ∀ text' pulled', e ≠ .itemReceived text' pulled' := fun _ _ h => he ⟨_, _, h⟩
        rw [applyEvent_inbox hne]
        refine ih hc hkeep' ?_
        rw [← hlast]
        unfold received
        rw [List.filterMap_append]
        cases e <;> first | exact absurd rfl (hne _ _) | simp
    | action w u =>
      have hb : (c.act w u).1 = b := by
        simp only [step] at hl
        split at hl
        · exact Option.some.inj hl
        · cases hl
      rw [← hb, act_inbox hk]
      refine ih hc hkeep' ?_
      rw [← hlast]
      simp [received, List.filterMap_append]

end App

end Duocb
