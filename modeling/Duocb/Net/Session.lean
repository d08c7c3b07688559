import Duocb.Net.Pump
import Duocb.Net.Publisher

set_option relaxedAutoImplicit false
set_option autoImplicit false

/-!
# Session tasks

The four session tasks of the runtime: hosting and dialing a clipboard session, and hosting and
joining a card setup. A task moves from one place where it waits to the next; its publisher moves
beside it. What it finds when it moves is in the label: what the transport, the clock, the other
device and the resolver answered.

## Main definitions

* `Duocb.Session` — a session task, the clip channel that feeds it and its cancel token.
* `Duocb.serverStep`, `Duocb.clientStep`, `Duocb.hostStep`, `Duocb.joinerStep` — one step of each.
* `Duocb.Session.step` — one step of a task.
-/

namespace Duocb

/-- Maximum number of consecutive failed connect attempts of a session that had connected. -/
def MAX_CONNECT_ATTEMPTS : ℕ := 10

/-- Where a session task waits. They are the awaits of the four session functions of the source;
which of them a task goes through depends on its kind. -/
inductive Phase where
  /-- It has not run yet. -/
  | spawned
  /-- Its endpoint is being created. -/
  | starting
  /-- A host waits for a connection it may serve. -/
  | accepting
  /-- A dialer looks for its target. -/
  | resolving
  /-- A dialer connects. -/
  | connecting
  /-- A dialer waits before the next attempt. -/
  | sleeping
  | authenticating (conn : Conn) (auth : Auth)
  /-- A clipboard session pumps a connection, whose stream was authenticated by a history. -/
  | pumping (conn : Conn) (hist : List HandshakeEvt) (pump : Pump)
  /-- A card setup trades cards. -/
  | exchanging (conn : Conn)
  /-- A card-setup host turns latecomers away. -/
  | refusing
  /-- The endpoint is being closed. -/
  | closing
  | ended

/-- A session task: its number, what it was started with, its cancel token, a pending request for a
new PIN, its clip channel with the last item sent, where it is, and its publisher; a dialer also
counts its attempts. -/
structure Session where
  sid : ℕ
  kind : SessionKind
  cancelled : Bool
  refresh : Bool
  clip : Clip
  phase : Phase
  publisher : Publisher
  attempts : ℕ
  connectedBefore : Bool

/-- A task that was just spawned. It has done nothing yet, and has surfaced nothing. -/
def Session.start (sid : ℕ) (kind : SessionKind) : Session where
  sid := sid
  kind := kind
  cancelled := false
  refresh := false
  clip := ⟨[], none⟩
  phase := .spawned
  publisher := .none
  attempts := 0
  connectedBefore := false

/-- What moves a session task. Each of them is the end of one of its waits, with what the wait
returns; the clock and the publisher come in here too. -/
inductive SessionLabel where
  /-- It runs for the first time. -/
  | begin (now : ℕ)
  /-- Its endpoint was created, or could not be. -/
  | bound (r : Except Error Unit)
  /-- The target was looked up. -/
  | resolved (r : Except Error EndpointId)
  /-- The target was dialed. -/
  | dialed (r : Except Error Conn)
  /-- A connection came in. -/
  | incoming (conn : Conn)
  /-- An operation of the authentication was answered; the peer may have closed the connection. -/
  | auth (l : AuthLabel) (closeCode : Option ℕ)
  | authTimeout
  /-- The cards were exchanged, or could not be. -/
  | exchanged (r : Except Error IdentityCard)
  | exchangeTimeout
  | pump (l : PumpLabel)
  /-- The delay before the next attempt is over. -/
  | slept
  /-- Latecomers have had their time. -/
  | graceOver
  /-- The task sees that it is cancelled. -/
  | cancelled
  /-- The endpoint is closed. -/
  | closed
  | publish (l : PublisherLabel)

/-- What a step leaves: the task, the memory it was lent, and what others see of it. -/
abbrev SessionResult : Type := Session × SessionMemory × List Out

/-- A status event. -/
def Out.status (status : ConnStatus) : Out := .event (.status status)

/-- An error event. -/
def Out.error (message : String) : Out := .event (.error message)

/-! ## What the tasks have in common -/

/-- Why an authentication the peer closed has failed. The peer says so with the code of its close.
With another code, or none, the failure is the device's own. -/
def authCloseReason (code : ℕ) : Option String :=
  if code = AUTH_FAILED_CODE then
    some ("Authentication rejected by the peer — untrusted application key/wrong PIN, or it is " ++
      "still handling another setup. Check the trusted cards or current PIN, then start the " ++
      "connection again on both devices")
  else if code = CARD_EXPIRED_CODE then
    some ("The other device's copy of this device's identity card has expired — copy this " ++
      "device's card again and import it there")
  else if code = AUTH_TIMEOUT_CODE then some "Authentication timed out on the peer"
  else if code = SERVER_BUSY_CODE then
    some ("The other device is already paired with another device — it links only one device at " ++
      "a time. Leave its current connection or card setup, then start again with this device")
  else none

/-- What a dialer whose authentication failed reports. -/
def authFailure (e : Error) (closeCode : Option ℕ) : String :=
  (closeCode.bind authCloseReason).getD e.display

/-- The code a listener closes a connection with whose authentication failed. -/
def authCloseCode (e : Error) : ℕ :=
  if e.marker = some .expiredCard then CARD_EXPIRED_CODE else AUTH_FAILED_CODE

namespace Session

/-- The task has returned: its publisher is aborted, and its clip channel is gone. -/
def finish (s : Session) : Session :=
  { s with phase := .ended, publisher := .none, clip := ⟨[], none⟩ }

/-- The endpoint could not be created. -/
def failedToStart (s : Session) (memory : SessionMemory) (e : Error) : SessionResult :=
  (s.finish, memory, [.error ("Failed to start: " ++ e.display), .status .idle])

/-- The same task at another place. -/
def at' (s : Session) (phase : Phase) : Session := { s with phase := phase }

/-- The task goes on to close its endpoint, if it is cancelled. -/
def cancel? (s : Session) (memory : SessionMemory) (outs : List Out) : Option SessionResult :=
  if s.cancelled then some (s.at' .closing, memory, outs) else none

/-- An answer of an authentication, and what comes after its success or failure. A handshake that
goes on keeps the task where it is; the two continuations say what its success and its failure lead
to. -/
def authStep (s : Session) (memory : SessionMemory) (conn : Conn) (auth : Auth) (l : AuthLabel)
    (ok : List HandshakeEvt → Option PublicKey → Session × List Out)
    (err : SessionMemory → Error → Session × List Out) : Option SessionResult :=
  (auth.step memory l).map fun (auth', memory') =>
    match auth'.prog with
    | .call _ _ => (s.at' (.authenticating conn auth'), memory', [])
    | .ret key =>
      let (s', outs) := ok auth'.hist key
      (s', memory', outs)
    | .fail e =>
      let (s', outs) := err memory' e
      (s', memory', outs)

/-- What others see of a pump's step. -/
def pumpOut (conn : Conn) : PumpOut → Out
  | .event e => .event e
  | .frame f => .frame conn f

/-- A step of a pump, and what comes after its end. A pump that goes on keeps the task where it is,
with the clip channel as the pump has left it. -/
def pumpStep (s : Session) (memory : SessionMemory) (conn : Conn) (hist : List HandshakeEvt)
    (p : Pump) (l : PumpLabel) (ended : Session → Session × List Out) : Option SessionResult :=
  (p.step s.clip l).map fun (p', clip', out) =>
    let s' := { s with clip := clip' }
    match p' with
    | .inl p' => (s'.at' (.pumping conn hist p'), memory, out.map (pumpOut conn))
    | .inr _ =>
      let (s'', outs) := ended s'
      (s'', memory, out.map (pumpOut conn) ++ outs)

/-- A listener begins to authenticate a connection. -/
def listen (s : Session) (C : Crypto) (ownId : EndpointId) (memory : SessionMemory)
    (keyAuth : Option KeyListener) (pinCache : Bool) (conn : Conn) : Session :=
  s.at' (.authenticating conn
    ⟨⟨keyAuth, pinCache, conn.remoteId, memory.claim.peer⟩, [],
      authAsListener C keyAuth conn.remoteId ownId⟩)

/-- A dialer begins to authenticate to its target. -/
def greet (s : Session) (conn : Conn) (program : Handshake (Option PublicKey)) : Session :=
  s.at' (.authenticating conn ⟨⟨none, false, conn.remoteId, none⟩, [], program⟩)

end Session

/-! ## Hosting a clipboard session -/

section Tasks

variable (C : Crypto) (ownId : EndpointId)

/-- `run_server_session`: accept, authenticate and pump one peer, and go on accepting meanwhile.
While a stream is pumped another connection of the peer is accepted too, and takes its place once it
may be served. -/
def serverStep (identity : KeyIdentity) (peerPublicKey : PublicKey) (channel : SignalChannel)
    (s : Session) (memory : SessionMemory) (l : SessionLabel) : Option SessionResult :=
  let keyAuth := some ⟨identity, peerPublicKey⟩
  match s.phase, l with
  | .spawned, .begin _ => some (s.at' .starting, memory, [.status .starting])
  | .starting, .bound (.error e) => some (s.failedToStart memory e)
  | .starting, .bound (.ok ()) =>
    some ({ s with phase := .accepting, publisher := .hosting .init }, memory,
      [.event (.serverReady ownId.toString (some identity.identity.publicKey)), .status .waiting])
  | .accepting, .incoming conn =>
    if memory.claim.serveable conn.remoteId true then
      some (s.listen C ownId memory keyAuth false conn, memory, [.status .authenticating])
    else some (s, memory, [.close conn SERVER_BUSY_CODE])
  | .accepting, .cancelled => s.cancel? memory []
  | .authenticating conn auth, .auth l _ =>
    s.authStep memory conn auth l
      (fun hist key => (s.at' (.pumping conn hist .start),
        [.event (.peerPaired conn.remoteId.toString key), .status .connected]))
      (fun _ e => (s.at' .accepting, [.close conn (authCloseCode e), .status .waiting]))
  | .authenticating conn _, .authTimeout =>
    some (s.at' .accepting, memory, [.close conn AUTH_TIMEOUT_CODE, .status .waiting])
  | .pumping conn hist p, .pump l =>
    s.pumpStep memory conn hist p l fun s =>
      if s.cancelled then (s.at' .closing, [.close conn SHUTDOWN_CODE])
      else (s.at' .accepting, [.event .peerDisconnected, .status .waiting])
  | .pumping conn _ _, .cancelled => s.cancel? memory [.close conn SHUTDOWN_CODE]
  | .pumping conn _ _, .incoming next =>
    if memory.claim.serveable next.remoteId false then
      -- the paired peer reconnected: its new connection supersedes the old one
      if s.cancelled then some (s.at' .closing, memory, [.close conn SHUTDOWN_CODE])
      else
        some (s.listen C ownId memory keyAuth false next, memory,
          [.close conn SHUTDOWN_CODE, .status .authenticating])
    else some (s, memory, [.close next SERVER_BUSY_CODE])
  | .closing, .closed => some (s.finish, memory, [])
  | _, .publish (.hosting r) =>
    match s.publisher with
    | .hosting p =>
      let (p', es) := p.round identity peerPublicKey channel r
      some ({ s with publisher := .hosting p' }, memory, es.map .event)
    | _ => none
  | _, _ => none

/-! ## Dialing a clipboard session -/

/-- What a client reports when it begins an attempt. -/
def lookingStatus (connectedBefore : Bool) : ConnStatus :=
  if connectedBefore then .resolving else .waiting

/-- An attempt failed, or the session dropped: wait for the peer to appear, or try again a bounded
number of times. -/
def attemptFailed (s : Session) : Session × List Out :=
  let s := { s with attempts := s.attempts + 1 }
  if !s.connectedBefore then (s.at' .sleeping, [.status .waiting])
  else if MAX_CONNECT_ATTEMPTS ≤ s.attempts then
    (s.at' .closing,
      [.error (s!"Could not reach the peer after {MAX_CONNECT_ATTEMPTS} attempts" ++
          " — press Retry to try again"), .status .idle])
  else (s.at' .sleeping, [.status (.reconnecting s.attempts MAX_CONNECT_ATTEMPTS)])

/-- `run_client_session`: look for the peer, dial, authenticate and pump it, again and again. A
connection that drops is dialed again as long as the attempts last; a refusal, a lapsed card or the
own node ends the session. -/
def clientStep (identity : KeyIdentity) (peerPublicKey : PublicKey)
    (s : Session) (memory : SessionMemory) (l : SessionLabel) : Option SessionResult :=
  match s.phase, l with
  | .spawned, .begin now =>
    match (identity.peer peerPublicKey).filter fun card => !card.isValidAt now with
    | some card =>
      some (s.finish, memory,
        [.status .starting, .error (expiredCardMessage card now), .status .idle])
    | none => some (s.at' .starting, memory, [.status .starting])
  | .starting, .bound (.error e) => some (s.failedToStart memory e)
  | .starting, .bound (.ok ()) =>
    some (s.at' .resolving, memory,
      [.event (.clientReady ownId.toString (some identity.identity.publicKey)),
        .status (lookingStatus s.connectedBefore)])
  | .resolving, .cancelled => if s.cancelled then some (s.finish, memory, []) else none
  | .resolving, .resolved (.ok id) =>
    if id = ownId then
      some (s.at' .closing, memory,
        [.error "That is this device's own node id — enter the other device's id", .status .idle])
    else some (s.at' .connecting, memory, [.status .connecting])
  | .resolving, .resolved (.error _) =>
    let (s', outs) := attemptFailed s
    some (s', memory, outs)
  | .connecting, .cancelled => s.cancel? memory []
  | .connecting, .dialed (.ok conn) =>
    some (s.greet conn (authAsDialerKey C identity.identity peerPublicKey conn.remoteId ownId),
      memory, [.status .authenticating])
  | .connecting, .dialed (.error _) =>
    let (s', outs) := attemptFailed s
    some (s', memory, outs)
  | .authenticating conn auth, .auth l closeCode =>
    s.authStep memory conn auth l
      (fun hist _ =>
        ({ s with phase := .pumping conn hist .start, attempts := 0, connectedBefore := true },
          [.event (.peerPaired conn.remoteId.toString (some peerPublicKey)), .status .connected]))
      (fun _ e => (s.at' .closing, [.error (authFailure e closeCode), .status .idle]))
  | .authenticating _ _, .authTimeout =>
    some (s.at' .closing, memory,
      [.error "Application-key authentication timed out", .status .idle])
  | .pumping conn hist p, .pump l =>
    s.pumpStep memory conn hist p l fun s =>
      if s.cancelled then (s.at' .closing, [.close conn SHUTDOWN_CODE])
      else
        let (s', outs) := attemptFailed s
        (s', .event .peerDisconnected :: outs)
  | .pumping conn _ _, .cancelled => s.cancel? memory [.close conn SHUTDOWN_CODE]
  | .sleeping, .cancelled => s.cancel? memory []
  | .sleeping, .slept =>
    some (s.at' .resolving, memory, [.status (lookingStatus s.connectedBefore)])
  | .closing, .closed => some (s.finish, memory, [])
  | _, _ => none

/-! ## Hosting a card setup -/

/-- An attempt of a joiner failed: go on listening, unless its PIN was accepted already. -/
def hostFailed (s : Session) (memory : SessionMemory) (conn : Conn) (e : Error) :
    Session × List Out :=
  if memory.claim.peer.any fun c => c.nodeId = some conn.remoteId then
    (s.at' .closing, [.close conn AUTH_FAILED_CODE, .error e.display])
  else (s.at' .accepting, [.close conn AUTH_FAILED_CODE, .status .waiting])

/-- The error of an exchange that took too long. -/
def exchangeTimeout : Error :=
  .msg "The other device stopped responding before its identity card arrived"

/-- `run_card_setup_host`: show a PIN, serve the joiner that proves it, swap cards and stop. A
handshake that fails lets it go on waiting; a failure after the PIN was accepted ends it. -/
def hostStep (channel : SignalChannel)
    (s : Session) (memory : SessionMemory) (l : SessionLabel) : Option SessionResult :=
  match s.phase, l with
  | .spawned, .begin _ => some (s.at' .starting, memory, [.status .starting])
  | .starting, .bound (.error e) => some (s.failedToStart memory e)
  | .starting, .bound (.ok ()) =>
    some ({ s with phase := .accepting, publisher := .pins .minting }, memory,
      [.event (.serverReady ownId.toString none), .status .waiting])
  | .accepting, .incoming conn =>
    if memory.claim.serveable conn.remoteId false then
      some (s.listen C ownId memory none true conn, memory, [.status .authenticating])
    else some (s, memory, [.close conn SERVER_BUSY_CODE])
  | .accepting, .cancelled => s.cancel? memory []
  | .authenticating conn auth, .auth l _ =>
    s.authStep memory conn auth l
      (fun _ _ => (s.at' (.exchanging conn),
        [.event (.peerPaired conn.remoteId.toString none), .status .connected]))
      (fun memory' e =>
        let (s', outs) := hostFailed s memory' conn (e.context "auth failed")
        (s', .close conn (authCloseCode e) :: outs))
  | .authenticating conn _, .authTimeout =>
    let (s', outs) := hostFailed s memory conn (.msg "auth timeout")
    some (s', memory, .close conn AUTH_TIMEOUT_CODE :: outs)
  | .exchanging conn, .exchanged (.ok card) =>
    some (s.at' .refusing, memory, [.event (.peerCardReceived card), .close conn SHUTDOWN_CODE])
  | .exchanging conn, .exchanged (.error e) =>
    let (s', outs) := hostFailed s memory conn e
    some (s', memory, outs)
  | .exchanging conn, .exchangeTimeout =>
    let (s', outs) := hostFailed s memory conn exchangeTimeout
    some (s', memory, outs)
  | .refusing, .incoming conn => some (s, memory, [.close conn SERVER_BUSY_CODE])
  | .refusing, .graceOver => some (s.at' .closing, memory, [])
  | .closing, .closed => some (s.finish, memory, [.status .idle])
  | _, .publish (.pins l) =>
    match s.publisher with
    | .pins p =>
      (p.step C channel ⟨memory.claim.paired, memory.recentPins, s.refresh, s.cancelled⟩ l).map
        fun (p', sh, es) =>
          ({ s with publisher := .pins p', refresh := sh.refresh },
            { memory with recentPins := sh.recentPins }, es.map .event)
    | _ => none
  | _, _ => none

/-! ## Joining a card setup -/

/-- A joiner's attempt failed: report it and stop. -/
def joinerFailed (s : Session) (memory : SessionMemory) (message : String) : SessionResult :=
  (s.at' .closing, memory, [.error message])

/-- `run_card_setup_joiner`: resolve the host from the typed PIN, prove the PIN, swap cards and
stop. -/
def joinerStep (canonicalPin : String)
    (s : Session) (memory : SessionMemory) (l : SessionLabel) : Option SessionResult :=
  match s.phase, l with
  | .spawned, .begin _ => some (s.at' .starting, memory, [.status .starting])
  | .starting, .bound (.error e) => some (s.failedToStart memory e)
  | .starting, .bound (.ok ()) =>
    some (s.at' .resolving, memory,
      [.event (.clientReady ownId.toString none), .status .resolving])
  | .resolving, .cancelled => s.cancel? memory []
  | .resolving, .resolved (.ok id) =>
    if id = ownId then
      some (joinerFailed s memory
        ("That PIN belongs to this device — show it on one device and type it on the other"))
    else some (s.at' .connecting, memory, [.status .connecting])
  | .resolving, .resolved (.error e) => some (joinerFailed s memory e.display)
  | .connecting, .cancelled => s.cancel? memory []
  | .connecting, .dialed (.ok conn) =>
    some (s.greet conn (authAsDialerPin C canonicalPin conn.remoteId ownId), memory,
      [.status .authenticating])
  | .connecting, .dialed (.error e) => some (joinerFailed s memory e.display)
  | .authenticating conn auth, .auth l closeCode =>
    s.authStep memory conn auth l
      (fun _ _ => (s.at' (.exchanging conn),
        [.event (.peerPaired conn.remoteId.toString none), .status .connected]))
      (fun _ e => (s.at' .closing, [.error (authFailure e closeCode)]))
  | .authenticating _ _, .authTimeout => some (joinerFailed s memory "PIN auth timed out")
  | .exchanging conn, .exchanged (.ok card) =>
    some (s.at' .closing, memory, [.close conn SHUTDOWN_CODE, .event (.peerCardReceived card)])
  | .exchanging _, .exchanged (.error e) => some (joinerFailed s memory e.display)
  | .exchanging _, .exchangeTimeout => some (joinerFailed s memory exchangeTimeout.display)
  | .closing, .closed => some (s.finish, memory, [.status .idle])
  | _, _ => none

/-- One step of a session task. It is that of the session function of its kind. -/
def Session.step (s : Session) (memory : SessionMemory) (l : SessionLabel) :
    Option SessionResult :=
  match s.kind with
  | .server (.key identity peerPublicKey channel) =>
    serverStep C ownId identity peerPublicKey channel s memory l
  | .server (.cardSetup _ channel _) => hostStep C ownId channel s memory l
  | .client (.key identity peerPublicKey _) =>
    clientStep C ownId identity peerPublicKey s memory l
  | .client (.cardSetup canonicalPin _ _ _ _) => joinerStep C ownId canonicalPin s memory l

end Tasks

end Duocb
