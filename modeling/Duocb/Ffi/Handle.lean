import Duocb.Ffi.Plan
import Duocb.Ffi.Process
import Duocb.Net.Runtime.Claims
import Duocb.Net.Session.Chosen
import Duocb.System

set_option relaxedAutoImplicit false
set_option autoImplicit false

/-!
# A handle and its runtime

A handle is all that a mobile application has of a session. Its calls become commands in a queue,
and the command loop of its runtime takes them one by one; meanwhile the session goes on. Whatever
the application calls and whenever, the runtime does what the configuration said: it starts the one
session of the plan, gives content to the chosen peer only, and gives nothing but the texts that the
application handed over.

## Main definitions

* `Duocb.HandleCall` — what an application can ask of a handle.
* `Duocb.DuocbHandle`, `Duocb.DuocbHandle.step` — a handle with its command queue and its runtime.
* `Duocb.FfiConfig.Names` — the identity and the peer that a configuration names.
* `Duocb.Session.Speaks` — a session can write nothing but given texts.

## Main results

* `Duocb.StartPlan.kind_of_config` — the session that a plan starts.
* `Duocb.Session.Speaks.step` — every step of a session keeps to the given texts.
* `Duocb.DuocbHandle.serves_plan` — what the runtime of a handle does in any run.
-/

namespace Duocb

/-! ## The session of a plan -/

/-- A card is the own card of a configuration: the text in its field parses to it. -/
def FfiConfig.Shows (N : Nostr) (cfg : FfiConfig) (selfCard : IdentityCard) : Prop :=
  ∃ text, cfg.selfCard = some text ∧ IdentityCard.parse N text = .ok selfCard

/-- The identity of a session and its peer are those that a configuration names: the key, the own
card, the trusted cards in their order and the relays come from its fields, and the peer is the
trusted device whose key is typed, in either form. -/
structure FfiConfig.Names (N : Nostr) (B : Bech32) (cfg : FfiConfig) (identity : KeyIdentity)
    (peer : PublicKey) : Prop where
  secret : ∃ text, cfg.identitySecret = some text ∧
    Identity.parseNsec B text = .ok identity.identity
  selfCard : cfg.Shows N identity.selfCard
  cards : List.Forall₂ (fun text card => IdentityCard.parse N text = .ok card) cfg.peers
    identity.peers
  relays : identity.relays = cfg.signalRelays
  chosen : ∃ text, cfg.peerPublicKey = some text ∧
    (trim text = peer.toHex ∨ trim text = B.npub peer)
  trusted : ∃ card ∈ identity.peers, card.publicKey = peer

/-- The session of a device with a peer on a channel, in the half that the two keys give it. -/
def SessionKind.between (identity : KeyIdentity) (peer : PublicKey) (channel : SignalChannel) :
    SessionKind :=
  match sessionRole identity.identity.publicKey peer with
  | .host => .server (.key identity peer channel)
  | .dial => .client (.key identity peer channel)

/-- **The session that a configuration asks for.** Each role asks for one session, and nothing in
it is left open: the half, the channel, the relays, the own card, and the peer or the PIN are all
read from the fields. -/
inductive FfiConfig.Asks (N : Nostr) (B : Bech32) (cfg : FfiConfig) : SessionKind → Prop where
  /-- To share with a peer, in the half that the two keys give this device. -/
  | share {identity : KeyIdentity} {peer : PublicKey} (role : cfg.role = .connect)
      (names : cfg.Names N B identity peer) :
      cfg.Asks N B (.between identity peer cfg.signalChannel)
  /-- To host a card setup for the own card. -/
  | host {selfCard : IdentityCard} (role : cfg.role = .cardHost) (shows : cfg.Shows N selfCard) :
      cfg.Asks N B (.server (.cardSetup selfCard cfg.signalChannel cfg.signalRelays))
  /-- To join the card setup whose PIN was typed, with the own card and the typed address. -/
  | join {selfCard : IdentityCard} {text canonicalPin : String} (role : cfg.role = .cardJoin)
      (shows : cfg.Shows N selfCard) (typed : cfg.pin = some text)
      (pin : normalizePin text = some canonicalPin) :
      cfg.Asks N B (.client (.cardSetup canonicalPin selfCard (typedIp cfg.ip) cfg.signalChannel
        cfg.signalRelays))

/-- A plan starts a session of this kind. -/
structure StartPlan.Starts (plan : StartPlan) (kind : SessionKind) : Prop where
  session : plan.sessionCmd.kind? = some kind
  sends : plan.sessionCmd.text? = none
  stop : plan.disconnectCmd.kind? = none
  stopSends : plan.disconnectCmd.text? = none

section Asks

variable {N : Nostr} {B : Bech32} {cfg : FfiConfig} {kind kind' : SessionKind}

/-- A text parses to one card. -/
lemma FfiConfig.Shows.unique {card card' : IdentityCard} (h : cfg.Shows N card)
    (h' : cfg.Shows N card') : card = card' := by
  obtain ⟨text, htext, hparse⟩ := h
  obtain ⟨text', htext', hparse'⟩ := h'
  obtain rfl := Option.some.inj (htext.symm.trans htext')
  exact Except.ok.inj (hparse.symm.trans hparse')

/-- A configuration names one identity and one peer.

**Proof sketch.** Every field is read by a function of its text, so that the identities agree field
by field. The typed key may be in either form, but a text in one form is no key in the other. -/
lemma FfiConfig.Names.unique (hB : B.Lawful) {identity identity' : KeyIdentity}
    {peer peer' : PublicKey} (h : cfg.Names N B identity peer)
    (h' : cfg.Names N B identity' peer') : identity = identity' ∧ peer = peer' := by
  obtain ⟨secret, hsecret, hidentity⟩ := h.secret
  obtain ⟨secret', hsecret', hidentity'⟩ := h'.secret
  obtain rfl := Option.some.inj (hsecret.symm.trans hsecret')
  have hcards : identity.peers = identity'.peers :=
    List.right_unique_forall₂' (fun _ _ _ hc hc' => Except.ok.inj (hc.symm.trans hc')) h.cards
      h'.cards
  have hsame : identity = identity' := by
    obtain ⟨own, selfCard, peers, relays⟩ := identity
    obtain ⟨own', selfCard', peers', relays'⟩ := identity'
    obtain rfl := Except.ok.inj (hidentity.symm.trans hidentity')
    obtain rfl := h.selfCard.unique h'.selfCard
    obtain rfl : peers = peers' := hcards
    obtain rfl : relays = relays' := h.relays.trans h'.relays.symm
    rfl
  refine ⟨hsame, ?_⟩
  obtain ⟨text, htext, hform⟩ := h.chosen
  obtain ⟨text', htext', hform'⟩ := h'.chosen
  obtain rfl := Option.some.inj (htext.symm.trans htext')
  obtain ⟨card, hfind, hcard⟩ := Device.find_selected hB h.trusted hform
  obtain ⟨card', hfind', hcard'⟩ := Device.find_selected hB h'.trusted hform'
  rw [← hcards] at hfind'
  obtain rfl := Option.some.inj (hfind.symm.trans hfind')
  exact hcard.symm.trans hcard'

/-- **A configuration asks for one session.**

**Proof sketch.** By cases on what is asked for: the role tells the three apart, and each field of
the configuration shows one value at most. -/
theorem FfiConfig.Asks.unique (hB : B.Lawful) (h : cfg.Asks N B kind) (h' : cfg.Asks N B kind') :
    kind = kind' := by
  cases h with
  | share role names =>
    cases h' with
    | share _ names' =>
      obtain ⟨rfl, rfl⟩ := names.unique hB names'
      rfl
    | host role' | join role' =>
      rw [role] at role'
      cases role'
  | host role shows =>
    cases h' with
    | host _ shows' =>
      obtain rfl := shows.unique shows'
      rfl
    | share role' | join role' =>
      rw [role] at role'
      cases role'
  | join role shows typed pin =>
    cases h' with
    | join _ shows' typed' pin' =>
      obtain rfl := shows.unique shows'
      obtain rfl := Option.some.inj (typed.symm.trans typed')
      obtain rfl := Option.some.inj (pin.symm.trans pin')
      rfl
    | share role' | host role' =>
      rw [role] at role'
      cases role'

/-- What a configuration asks for that shares with no peer is a card setup. -/
lemma FfiConfig.Asks.isCardSetup (h : cfg.Asks N B kind) (hrole : cfg.role ≠ .connect) :
    kind.isCardSetup = true := by
  cases h with
  | share role => exact absurd role hrole
  | host | join => rfl

/-- **The session that a plan starts** is the one that its configuration asks for.

**Proof sketch.** The planner is a sequence of checks. Each leaves the fact that it read a field,
and the branch of the role puts the values that were read into the command. -/
theorem StartPlan.kind_of_config {plan : StartPlan}
    (h : buildStartPlan N B cfg = .ok plan) : ∃ kind, plan.Starts kind ∧ cfg.Asks N B kind := by
  simp only [buildStartPlan, bind_eq_ok, okOr_eq_ok, labelled_eq_ok] at h
  obtain ⟨irohSecret, -, text, htext, selfCard, hselfCard, -, -, -, -, -, -, h⟩ := h
  have hshows : cfg.Shows N selfCard := ⟨text, htext, hselfCard⟩
  cases hrole : cfg.role with
  | cardHost =>
    simp only [hrole, pure, Except.pure, Except.ok.injEq] at h
    subst h
    exact ⟨_, ⟨rfl, rfl, rfl, rfl⟩, .host hrole hshows⟩
  | cardJoin =>
    simp only [hrole, bind_eq_ok, okOr_eq_ok, pure, Except.pure, Except.ok.injEq] at h
    obtain ⟨canonicalPin, hpin, targetIp, hip, rfl⟩ := h
    obtain ⟨typed, htyped, hpin⟩ := normalizePin_getD.1 hpin
    obtain ⟨-, rfl⟩ := readTargetIp_eq_ok.1 hip
    exact ⟨_, ⟨rfl, rfl, rfl, rfl⟩, .join hrole hshows htyped hpin⟩
  | connect =>
    simp only [hrole, bind_eq_ok, okOr_eq_ok, labelled_eq_ok, refuseIf_eq_ok] at h
    obtain ⟨secret, hsecret, identity, hidentity, -, -, -, -, peers, hpeers, selected, hselected,
      found, hfound, h⟩ := h
    obtain ⟨hparse, -⟩ := readPeers_eq_ok.1 hpeers
    obtain ⟨hmem, hchosen⟩ := picked_cases hselected hfound
    have hnamed : cfg.Names N B ⟨identity, selfCard, peers, cfg.signalRelays⟩ found.publicKey :=
      ⟨⟨secret, hsecret, hidentity⟩, hshows, hparse, rfl, hchosen, found, hmem, rfl⟩
    have hasks := FfiConfig.Asks.share hrole hnamed
    unfold SessionKind.between at hasks
    split at h
    all_goals
      rename_i hhalf
      obtain rfl := Except.ok.inj h
      rw [hhalf] at hasks
      exact ⟨_, ⟨rfl, rfl, rfl, rfl⟩, hasks⟩

end Asks

/-! ## What a session can write -/

/-- A clip frame that asks for content, or carries a given text. -/
def Frame.Carries (given : List String) (f : Frame) : Prop :=
  f = ClipMsg.pullLatest.toFrame ∨ ∃ text ∈ given, ∃ ms,
    f = (ClipMsg.item text ms).toFrame ∨ f = (ClipMsg.latest text ms).toFrame

/-- The text a writer is about to write, be it an item or a re-delivery. -/
def Writer.saying : Writer → Option String
  | item text _ | latest text _ => some text
  | pulling | ready => none

/-- A pump, with the channel that feeds it, has nothing but given texts. -/
structure Pump.Speaks (p : Pump) (clip : Clip) (given : List String) : Prop where
  queue : ∀ text ∈ clip.queue, text ∈ given
  last : ∀ text ms, clip.lastSent = some (text, ms) → text ∈ given
  writer : ∀ text, p.writer.saying = some text → text ∈ given

/-- **A step of a pump keeps to the given texts**: what it writes carries one of them, and what is
left has nothing else.

**Proof sketch.** By cases on the step. What is written is the item that was taken from the queue,
or the last one that was sent, or a frame without a text. -/
lemma Pump.Speaks.step {p : Pump} {clip clip' : Clip} {given : List String} {l : PumpLabel}
    {s : PumpState} {out : List PumpOut} (h : p.Speaks clip given)
    (hstep : p.step clip l = some (s, clip', out)) :
    (∀ p', s = .inl p' → p'.Speaks clip' given) ∧ ∀ f, .frame f ∈ out → f.Carries given := by
  cases Pump.step_cases hstep with
  | pulled hw =>
    refine ⟨?_, by simp [Frame.Carries]⟩
    rintro p' ⟨⟩
    exact ⟨h.queue, h.last, fun text ht => by cases ht⟩
  | sent text ms hw =>
    have hgiven := h.writer text (by rw [hw]; rfl)
    refine ⟨?_, ?_⟩
    · rintro p' ⟨⟩
      refine ⟨h.queue, ?_, fun text ht => by cases ht⟩
      intro text' ms' hlast
      cases hlast
      exact hgiven
    · intro f hf
      simp only [List.mem_cons, PumpOut.frame.injEq, reduceCtorEq, List.not_mem_nil,
        or_false] at hf
      exact Or.inr ⟨text, hgiven, ms, Or.inl hf⟩
  | resent text ms hw =>
    have hgiven := h.writer text (by rw [hw]; rfl)
    refine ⟨?_, ?_⟩
    · rintro p' ⟨⟩
      exact ⟨h.queue, h.last, fun text ht => by cases ht⟩
    · intro f hf
      obtain rfl := PumpOut.frame.inj (List.mem_singleton.1 hf)
      exact Or.inr ⟨text, hgiven, ms, Or.inr rfl⟩
  | took text rest ms hw hq =>
    refine ⟨?_, by simp⟩
    rintro p' ⟨⟩
    refine ⟨?_, h.last, ?_⟩
    · intro t ht
      exact h.queue t (by rw [hq]; exact List.mem_cons_of_mem _ ht)
    · intro t ht
      obtain rfl := Option.some.inj ht
      exact h.queue text (by rw [hq]; exact List.mem_cons_self)
  | refused text rest ms e hw hq =>
    refine ⟨?_, by simp⟩
    rintro p' ⟨⟩
    refine ⟨?_, h.last, h.writer⟩
    intro t ht
    exact h.queue t (by rw [hq]; exact List.mem_cons_of_mem _ ht)
  | answered text ms pulls hw hp hlast =>
    refine ⟨?_, by simp⟩
    rintro p' ⟨⟩
    refine ⟨h.queue, h.last, ?_⟩
    intro t ht
    obtain rfl := Option.some.inj ht
    exact h.last text ms hlast
  | skipped | nudged | received =>
    refine ⟨?_, by simp⟩
    rintro p' ⟨⟩
    exact ⟨h.queue, h.last, h.writer⟩
  | broke | failed =>
    refine ⟨?_, by simp⟩
    rintro p' ⟨⟩

namespace Session

/-- A session can write nothing but given texts. -/
structure Speaks (s : Session) (given : List String) : Prop where
  queue : ∀ text ∈ s.clip.queue, text ∈ given
  last : ∀ text ms, s.clip.lastSent = some (text, ms) → text ∈ given
  pump : ∀ conn hist p, s.phase = .pumping conn hist p →
    ∀ text, p.writer.saying = some text → text ∈ given

variable {C : Crypto} {ownId : EndpointId} {s s' : Session} {memory memory' : SessionMemory}
  {l : SessionLabel} {outs : List Out} {given more : List String}

/-- A task that speaks of some texts speaks of more. -/
lemma Speaks.mono (h : s.Speaks given) (hsub : ∀ text ∈ given, text ∈ more) : s.Speaks more :=
  ⟨fun text ht => hsub text (h.queue text ht), fun text ms ht => hsub text (h.last text ms ht),
    fun conn hist p hp text ht => hsub text (h.pump conn hist p hp text ht)⟩

/-- A session whose channel stays speaks as before, unless it pumps with another writer. -/
lemma Speaks.keep (h : s.Speaks given) (hclip : s'.clip = s.clip)
    (hphase : ∀ conn hist p, s'.phase = .pumping conn hist p →
      s.phase = .pumping conn hist p ∨ p = .start) : s'.Speaks given := by
  refine ⟨?_, ?_, ?_⟩
  · rw [hclip]
    exact h.queue
  · rw [hclip]
    exact h.last
  · intro conn hist p hp text ht
    rcases hphase conn hist p hp with hold | rfl
    · exact h.pump conn hist p hold text ht
    · cases ht

/-- A session with nothing on its channel and no pump has nothing to write. -/
lemma speaks_of_empty (given : List String) (hclip : s.clip = ⟨[], none⟩)
    (hphase : s.phase.NoPump) : s.Speaks given := by
  refine ⟨?_, ?_, ?_⟩
  · intro text ht
    rw [hclip] at ht
    cases ht
  · intro text ms ht
    rw [hclip] at ht
    cases ht
  · intro conn hist p hp
    rw [hp] at hphase
    exact hphase.elim

/-- **Every step of a session keeps to the given texts.**

**Proof sketch.** By cases on the step. A pump keeps to the texts by the lemma above, and the other
phases write no text. -/
theorem Speaks.step (h : s.Speaks given)
    (hstep : s.step C ownId memory l = some (s', memory', outs)) : s'.Speaks given := by
  cases step_cases hstep with
  | stay _ _ _ _ _ phase clip => exact h.keep clip fun conn hist p hp => Or.inl (phase ▸ hp)
  | pumps _ conn hist p p' clip' out _ _ from_ step _ phase clip =>
    have hpump : p.Speaks s.clip given := ⟨h.queue, h.last, h.pump conn hist p from_⟩
    obtain ⟨hleft, -⟩ := hpump.step step
    have hspeaks := hleft p' rfl
    refine ⟨?_, ?_, ?_⟩
    · rw [clip]
      exact hspeaks.queue
    · rw [clip]
      exact hspeaks.last
    · intro conn' hist' p'' hp
      rw [phase] at hp
      cases hp
      exact hspeaks.writer
  | paired _ _ _ _ _ _ _ _ _ _ _ _ _ _ _ phase clip =>
    refine h.keep clip fun conn hist p hp => Or.inr ?_
    rw [phase] at hp
    cases hp
    rfl
  | move _ _ _ _ _ _ into clip | unpaired _ _ _ _ _ _ _ _ _ _ _ _ into clip
  | receives _ _ _ _ _ _ into clip =>
    refine h.keep clip fun conn hist p hp => ?_
    rw [hp] at into
    exact into.elim
  | begin_ _ _ _ _ _ _ _ phase clip | goOn _ _ _ _ _ _ _ _ _ _ phase clip
  | trades _ _ _ _ _ _ _ _ _ _ _ _ _ phase clip | exhausted _ _ _ _ _ _ _ _ _ _ _ _ _ _ phase clip
  | stops _ _ _ _ _ _ _ _ phase clip | preempts _ _ _ _ _ _ _ _ _ _ phase clip
  | closes _ _ _ _ _ _ phase clip | givesUp _ _ _ _ _ _ _ phase clip =>
    refine h.keep clip fun conn hist p hp => ?_
    rw [phase] at hp
    cases hp
  | returns | returnsIdle => exact speaks_of_empty given rfl trivial

/-- What a session writes carries a given text. -/
lemma Speaks.frames (h : s.Speaks given)
    (hstep : s.step C ownId memory l = some (s', memory', outs)) {conn : Conn} {f : Frame}
    (hf : .frame conn f ∈ outs) : f.Carries given := by
  obtain ⟨hist, p, _, _, _, _, hphase, hpump, hmem⟩ :=
    TimedSession.frame_cases (step_cases hstep) hf
  have hspeaks : p.Speaks s.clip given := ⟨h.queue, h.last, h.pump conn hist p hphase⟩
  exact (hspeaks.step hpump).2 f hmem

end Session

/-! ## A handle -/

/-- What an application can ask of a handle. Each of them sends one command to the runtime, and none
waits for it. -/
inductive HandleCall where
  | sendClipboard (text : String)
  | refreshPin
  | queryConnPath
  /-- End the session, and keep the runtime. -/
  | disconnect
  /-- Start the session of the plan again. -/
  | reconnect
  /-- End the runtime; it is the last call. -/
  | shutdown

/-- A handle: the plan it was made from, its commands on their way, its runtime, and whether it was
shut down. For the record, the texts that were handed over. -/
structure DuocbHandle where
  plan : StartPlan
  commands : List UiCommand
  net : Runtime
  stopped : Bool
  given : List String

/-- What moves a handle: a call of the application, or its runtime, which takes the first of its
commands or goes on. -/
inductive HandleLabel where
  | call (c : HandleCall)
  | net (l : RuntimeLabel)

namespace DuocbHandle

/-- A new handle, with the command for its session on its way. -/
def start (plan : StartPlan) : DuocbHandle := ⟨plan, [plan.sessionCmd], .init, false, []⟩

/-- Send a command; once the loop has ended nobody receives it. -/
def send (h : DuocbHandle) (cmd : UiCommand) : DuocbHandle :=
  match h.net.loop with
  | .ended => h
  | _ => { h with commands := h.commands ++ [cmd] }

/-- A call of the application. A text that is handed over is recorded, so that what is written later
can be compared with it. -/
def call (h : DuocbHandle) : HandleCall → DuocbHandle
  | .sendClipboard text => { h.send (.sendClipboard text) with given := h.given ++ [text] }
  | .refreshPin => h.send .refreshPin
  | .queryConnPath => h.send .queryConnPath
  | .disconnect => h.send h.plan.disconnectCmd
  | .reconnect => h.send h.plan.sessionCmd
  | .shutdown => { h.send .shutdown with stopped := true }

section Step

variable (C : Crypto) (ownId : EndpointId)

/-- One step of a handle. A call is possible until the handle is shut down. The runtime takes the
commands in the order in which they were sent. -/
def step (h : DuocbHandle) : HandleLabel → Option (DuocbHandle × List RuntimeOut)
  | .call c => if h.stopped then none else some (h.call c, [])
  | .net l =>
    if l.taken.isPrefixOf h.commands then
      (h.net.step C ownId l).map fun (net, outs) =>
        ({ h with commands := h.commands.drop l.taken.length, net := net }, outs)
    else none

/-- The stream that is pumped, which has proved what a session of this kind asks of it. -/
def Pumps (h : DuocbHandle) (kind : SessionKind) (conn : Conn) : Prop :=
  ∃ s memory hist p, h.net.task = some s ∧ s.phase = .pumping conn hist p ∧
    h.net.memory = some memory ∧ Proved C ownId kind conn memory.claim hist

/-- A step keeps to a session of this kind and to the texts that were handed over. The three clauses
are about what the step puts out: starts of sessions, frames of the clipboard, and items. -/
structure Confined (h : DuocbHandle) (kind : SessionKind) (l : HandleLabel)
    (outs : List RuntimeOut) : Prop where
  /-- A session that starts is of the kind, -/
  starts : ∀ sid kind' memory claim, .started sid kind' memory claim ∈ outs → kind' = kind
  /-- clipboard frames go to the proved stream and carry texts that were handed over, -/
  writes : ∀ sid conn f, .out sid (.frame conn f) ∈ outs →
    f.Carries h.given ∧ h.Pumps C ownId kind conn
  /-- and an item is surfaced when a frame was read from the proved stream. -/
  surfaces : ∀ sid text again, .out sid (.event (.itemReceived text again)) ∈ outs →
    ∃ conn frame, l = .net (.own (.pump (.read (.ok frame)))) ∧ h.Pumps C ownId kind conn

/-- What holds of a handle over a whole run. The commands in the queue and the one that is held are
the plan's own, the runtime is sound, and every text was handed over. -/
structure Tied (kind : SessionKind) (h : DuocbHandle) : Prop where
  plan : h.plan.Starts kind
  net : h.net.Sound C ownId
  task : ∀ s, h.net.task = some s → s.kind = kind ∧ s.Speaks h.given
  held : ∀ kind' ∈ h.net.held, kind' = kind
  kinds : ∀ cmd ∈ h.commands, ∀ kind', cmd.kind? = some kind' → kind' = kind
  texts : ∀ cmd ∈ h.commands, ∀ text, cmd.text? = some text → text ∈ h.given

variable {C ownId} {h h' : DuocbHandle} {kind : SessionKind} {l : HandleLabel}
  {outs : List RuntimeOut}

/-- A handle that has just begun is tied to its session. -/
lemma tied_start {plan : StartPlan} (hplan : plan.Starts kind) :
    (start plan).Tied C ownId kind where
  plan := hplan
  net := Runtime.sound (show Runtime.Ran C ownId [] .init [] from rfl)
  task s hs := by cases hs
  held kind' hk := by cases hk
  kinds cmd hcmd kind' hk := by
    obtain rfl := List.mem_singleton.1 hcmd
    exact Option.some.inj (hk.symm.trans hplan.session)
  texts cmd hcmd text ht := by
    obtain rfl := List.mem_singleton.1 hcmd
    cases hplan.sends.symm.trans ht

/-- Sending a command touches nothing but the queue. -/
lemma send_cases (h : DuocbHandle) (cmd : UiCommand) :
    h.send cmd = h ∨ h.send cmd = { h with commands := h.commands ++ [cmd] } := by
  unfold send
  split
  · exact Or.inl rfl
  · exact Or.inr rfl

/-- A handle stays tied when a command is sent that starts the same session or none, and a text that
it sends is on the record.

**Proof sketch.** A command that is sent comes at the end of the queue, unless the runtime has
ended. There it is the only new one, and it is accounted for by the hypotheses. -/
lemma Tied.send (ht : h.Tied C ownId kind) (cmd : UiCommand) (given : List String) (stopped : Bool)
    (hgiven : ∀ text ∈ h.given, text ∈ given)
    (hkind : ∀ kind', cmd.kind? = some kind' → kind' = kind)
    (htext : ∀ text, cmd.text? = some text → text ∈ given) :
    Tied C ownId kind { h.send cmd with given := given, stopped := stopped } := by
  have htexts : ∀ c ∈ h.commands, ∀ text, c.text? = some text → text ∈ given :=
    fun c hc text h => hgiven text (ht.texts c hc text h)
  have htask : ∀ s, h.net.task = some s → s.kind = kind ∧ s.Speaks given :=
    fun s hs => ⟨(ht.task s hs).1, (ht.task s hs).2.mono hgiven⟩
  rcases h.send_cases cmd with he | he
  · rw [he]
    exact ⟨ht.plan, ht.net, htask, ht.held, ht.kinds, htexts⟩
  · rw [he]
    refine ⟨ht.plan, ht.net, htask, ht.held, ?_, ?_⟩
    · intro c hc
      rcases List.mem_append.1 hc with hc | hc
      · exact ht.kinds c hc
      · obtain rfl := List.mem_singleton.1 hc
        exact hkind
    · intro c hc
      rcases List.mem_append.1 hc with hc | hc
      · exact htexts c hc
      · obtain rfl := List.mem_singleton.1 hc
        exact htext

/-- A call keeps the handle tied.

**Proof sketch.** By cases on the call: it sends one command, which starts the session of the plan
or none, and a text that is sent is put on the record first. -/
lemma Tied.call (ht : h.Tied C ownId kind) (c : HandleCall) : (h.call c).Tied C ownId kind := by
  have hsame : ∀ text ∈ h.given, text ∈ h.given := fun _ => id
  have hgiven : ∀ cmd, (h.send cmd).given = h.given ∧ (h.send cmd).stopped = h.stopped := by
    intro cmd
    rcases h.send_cases cmd with he | he
    · exact ⟨by rw [he], by rw [he]⟩
    · exact ⟨by rw [he], by rw [he]⟩
  have plain : ∀ cmd : UiCommand, (∀ kind', cmd.kind? = some kind' → kind' = kind) →
      cmd.text? = none → (h.send cmd).Tied C ownId kind := by
    intro cmd hkind htext
    have hsent := ht.send cmd (h.send cmd).given (h.send cmd).stopped
      (by rw [(hgiven cmd).1]; exact hsame) hkind (by simp [htext])
    exact hsent
  cases c with
  | sendClipboard text =>
    have hsent := ht.send (.sendClipboard text) (h.given ++ [text])
      (h.send (.sendClipboard text)).stopped
      (fun t h => List.mem_append_left _ h) (by simp [UiCommand.kind?])
      (fun t h => by simp [UiCommand.text?] at h; simp [h])
    exact hsent
  | refreshPin => exact plain .refreshPin (by simp [UiCommand.kind?]) rfl
  | queryConnPath => exact plain .queryConnPath (by simp [UiCommand.kind?]) rfl
  | disconnect => exact plain _ (by simp [ht.plan.stop]) ht.plan.stopSends
  | reconnect =>
    refine plain _ ?_ ht.plan.sends
    intro kind' hk
    exact Option.some.inj (hk.symm.trans ht.plan.session)
  | shutdown =>
    have hsent := ht.send .shutdown (h.send .shutdown).given true
      (by rw [(hgiven _).1]; exact hsame) (by simp [UiCommand.kind?]) (by simp [UiCommand.text?])
    exact hsent

/-! ## The runtime of a handle -/

/-- What a step of the runtime starts is what its commands ask for. -/
lemma starts_cases {r r' : Runtime} {a : RuntimeLabel} {kind' : SessionKind}
    (hstep : r.step C ownId a = some (r', outs)) (hstarts : (r', outs) = r.startSession kind') :
    kind' ∈ r.held ++ a.taken.filterMap UiCommand.kind? := by
  obtain ⟨rfl, rfl⟩ := Prod.mk.inj hstarts
  rcases Runtime.queue_of_step hstep with ⟨k, hk, he⟩ | ⟨-, hsessions⟩
  · have hsame : k = kind' := by
      have hout := (Prod.mk.inj he).2
      simp only [List.cons.injEq, RuntimeOut.started.injEq] at hout
      exact hout.1.2.1.symm
    rw [hk, hsame]
    exact List.mem_singleton_self _
  · exact absurd hsessions (Nat.succ_ne_self _)

/-- The sessions that a tied handle may start are of its kind. -/
lemma Tied.pending (ht : h.Tied C ownId kind) {a : RuntimeLabel} {rest : List UiCommand}
    (hcommands : h.commands = a.taken ++ rest) {kind' : SessionKind}
    (hk : kind' ∈ h.net.held ++ a.taken.filterMap UiCommand.kind?) : kind' = kind := by
  rcases List.mem_append.1 hk with hk | hk
  · exact ht.held kind' hk
  · obtain ⟨cmd, hcmd, hk⟩ := List.mem_filterMap.1 hk
    exact ht.kinds cmd (by rw [hcommands]; exact List.mem_append_left _ hcmd) kind' hk

/-- The task after a step of the runtime is of the kind, and can write nothing but what was handed
over.

**Proof sketch.** By cases on the step of the runtime. The task goes on, takes a text from the queue
of commands, or is started for a command of the queue, which is of the kind. -/
lemma Tied.task_step (ht : h.Tied C ownId kind) {a : RuntimeLabel} {rest : List UiCommand}
    {r : Runtime} (hcommands : h.commands = a.taken ++ rest)
    (hstep : h.net.step C ownId a = some (r, outs)) {s : Session} (hs : r.task = some s) :
    s.kind = kind ∧ s.Speaks h.given := by
  cases Runtime.step_cases ht.net.exclusive hstep with
  | own a s₁ s' memory memory' os htask hmem hown =>
    obtain ⟨htask', -⟩ := h.net.withTask_task s' memory'
    obtain rfl := Option.some.inj (htask'.symm.trans hs)
    obtain ⟨hkind, hspeaks⟩ := ht.task s₁ htask
    exact ⟨(Session.step_same hown).kind.trans hkind, hspeaks.step hown⟩
  | asked cmd paths s₁ s' hidle hsession hsame hphase _ _ hclip =>
    rw [Runtime.task_of_receiving (by exact hidle)] at hs
    obtain rfl : s' = s := Option.some.inj hs
    obtain ⟨hkind, hspeaks⟩ := ht.task s₁ (by rw [Runtime.task_of_receiving hidle, hsession])
    refine ⟨hsame.kind.trans hkind, ?_⟩
    rcases hclip with hclip | ⟨-, text, rfl, hclip⟩
    · exact hspeaks.keep hclip fun conn hist p hp => Or.inl (hphase ▸ hp)
    · refine ⟨?_, ?_, ?_⟩
      · intro t hmem
        rw [hclip] at hmem
        rcases List.mem_append.1 hmem with hmem | hmem
        · exact hspeaks.queue t hmem
        · obtain rfl := List.mem_singleton.1 hmem
          exact ht.texts (.sendClipboard t) (by rw [hcommands]; exact List.mem_cons_self) t rfl
      · rw [hclip]
        exact hspeaks.last
      · rw [hphase]
        exact hspeaks.pump
  | answered => exact ht.task s hs
  | cancels cmd paths s₁ hidle hsession =>
    obtain rfl : ({ s₁ with cancelled := true } : Session) = s := Option.some.inj hs
    obtain ⟨hkind, hspeaks⟩ := ht.task s₁ (by rw [Runtime.task_of_receiving hidle, hsession])
    exact ⟨hkind, hspeaks.keep rfl fun conn hist p hp => Or.inl hp⟩
  | starts a kind' =>
    obtain rfl : Session.start h.net.sessions kind' = s := Option.some.inj hs
    exact ⟨ht.pending hcommands (starts_cases hstep rfl), Session.speaks_of_empty _ rfl trivial⟩
  | forgets a hgone =>
    have hnone : h.net.session = some s := hs
    cases hgone.symm.trans hnone
  | ends loop a hgone hfree =>
    unfold Runtime.task at hs
    split at hs
    · rename_i s₁ cmd hloop
      exact absurd hloop (hfree s₁ cmd)
    · have hnone : h.net.session = some s := hs
      cases hgone.symm.trans hnone

/-- A step of the runtime keeps the handle tied.

**Proof sketch.** The runtime stays sound by its own step lemma. The commands that are left were in
the queue before, and the one that is held was in the queue or was held. -/
lemma Tied.net_step (ht : h.Tied C ownId kind) {a : RuntimeLabel} {rest : List UiCommand}
    {r : Runtime} (hcommands : h.commands = a.taken ++ rest)
    (hstep : h.net.step C ownId a = some (r, outs)) :
    Tied C ownId kind { h with commands := rest, net := r } where
  plan := ht.plan
  net := Runtime.sound_of_step ht.net hstep
  task s hs := ht.task_step hcommands hstep hs
  held kind' hk := by
    rcases Runtime.queue_of_step hstep with ⟨k, -, he⟩ | ⟨hheld, -⟩
    · obtain rfl := (Prod.mk.inj he).1
      cases hk
    · exact ht.pending hcommands (hheld ▸ hk)
  kinds cmd hcmd := ht.kinds cmd (by rw [hcommands]; exact List.mem_append_right _ hcmd)
  texts cmd hcmd := ht.texts cmd (by rw [hcommands]; exact List.mem_append_right _ hcmd)

/-- A label that moves the runtime takes the first commands of the queue. -/
lemma net_cases {a : RuntimeLabel} (hstep : h.step C ownId (.net a) = some (h', outs)) :
    ∃ rest r, h.commands = a.taken ++ rest ∧ h.net.step C ownId a = some (r, outs) ∧
      h' = { h with commands := rest, net := r } := by
  simp only [step] at hstep
  split_ifs at hstep with htaken
  obtain ⟨⟨r, os⟩, hnet, he⟩ := Option.map_eq_some_iff.1 hstep
  obtain ⟨rfl, rfl⟩ := Prod.mk.inj he
  obtain ⟨rest, hrest⟩ := List.isPrefixOf_iff_prefix.1 htaken
  refine ⟨rest, r, hrest.symm, hnet, ?_⟩
  rw [← hrest, List.drop_left]

/-- **Every step keeps a handle tied to its session.** -/
lemma Tied.step (ht : h.Tied C ownId kind) (hstep : h.step C ownId l = some (h', outs)) :
    h'.Tied C ownId kind := by
  cases l with
  | call c =>
    simp only [DuocbHandle.step] at hstep
    split_ifs at hstep
    obtain ⟨rfl, rfl⟩ := Prod.mk.inj (Option.some.inj hstep)
    exact ht.call c
  | net a =>
    obtain ⟨rest, r, hcommands, hnet, rfl⟩ := net_cases hstep
    exact ht.net_step hcommands hnet

/-- What a runtime puts out of its task comes from a step of the task. -/
lemma own_of_out {r r' : Runtime} (hex : r.Exclusive) {a : RuntimeLabel}
    (hstep : r.step C ownId a = some (r', outs)) {sid : ℕ} {o : Out} (ho : .out sid o ∈ outs) :
    ∃ b s s' memory memory' os, a = .own b ∧ r.task = some s ∧ r.memory = some memory ∧
      s.step C ownId memory b = some (s', memory', os) ∧ o ∈ os := by
  cases Runtime.step_cases hex hstep with
  | own b s s' memory memory' os htask hmem hown =>
    obtain ⟨o', ho', he⟩ := List.mem_map.1 ho
    cases he
    exact ⟨b, s, s', memory, memory', os, rfl, htask, hmem, hown, ho'⟩
  | _ => simp [Runtime.startSession] at ho

/-- **A step of a tied handle keeps to its session.**

**Proof sketch.** A stream that is pumped has proved what its session asks for, and its session is
of the kind. What a step surfaces or writes comes from the pump. -/
lemma Tied.confined (ht : h.Tied C ownId kind) (hstep : h.step C ownId l = some (h', outs)) :
    h.Confined C ownId kind l outs := by
  cases l with
  | call c =>
    simp only [DuocbHandle.step] at hstep
    split_ifs at hstep
    obtain ⟨-, rfl⟩ := Prod.mk.inj (Option.some.inj hstep)
    exact ⟨by simp, by simp, by simp⟩
  | net a =>
    obtain ⟨rest, r, hcommands, hnet, rfl⟩ := net_cases hstep
    have pumps : ∀ {s memory conn hist p}, h.net.task = some s → h.net.memory = some memory →
        s.phase = .pumping conn hist p → h.Pumps C ownId kind conn := by
      intro s memory conn hist p hs hm hphase
      obtain ⟨memory', hm', hinv⟩ := ht.net.task s hs
      have hproved := hinv.pump conn hist p hphase
      rw [(ht.task s hs).1] at hproved
      exact ⟨s, memory', hist, p, hs, hphase, hm', hproved⟩
    constructor
    · intro sid kind' memory claim hmem
      cases Runtime.step_cases ht.net.exclusive hnet with
      | starts a kind'' =>
        cases List.mem_singleton.1 hmem
        exact ht.pending hcommands (starts_cases hnet rfl)
      | _ => simp at hmem
    · intro sid conn f hmem
      obtain ⟨b, s, s', memory, memory', os, rfl, hs, hm, hown, ho⟩ :=
        own_of_out ht.net.exclusive hnet hmem
      refine ⟨(ht.task s hs).2.frames hown ho, ?_⟩
      obtain ⟨hist, p, _, _, _, _, hphase, -⟩ :=
        TimedSession.frame_cases (Session.step_cases hown) ho
      exact pumps hs hm hphase
    · intro sid text again hmem
      obtain ⟨b, s, s', memory, memory', os, rfl, hs, hm, hown, ho⟩ :=
        own_of_out ht.net.exclusive hnet hmem
      obtain ⟨conn, hist, p, frame, hphase, rfl⟩ :=
        TimedSession.item_cases (Session.step_cases hown) ho
      exact ⟨conn, frame, rfl, pumps hs hm hphase⟩

/-- **A handle serves its plan.** Whatever a configuration asks for that was accepted, and whatever
the application calls of the handle, in any order and while the session goes on: every session that
its runtime ever starts is the one that was asked for; clipboard frames are written to, and items
are surfaced from, a stream only whose own handshake proved the chosen peer; and what is written
carries nothing but the texts that were handed over. A card setup writes and surfaces no content at
all.

**Proof sketch.** The kind is read off the configuration, and being tied to it is an invariant of
the handle. A step of a tied handle keeps to its session, and a card setup has no stream to pump. -/
theorem serves_plan (C : Crypto) (ownId : EndpointId) {N : Nostr} {B : Bech32} {cfg : FfiConfig}
    {plan : StartPlan} (hplan : buildStartPlan N B cfg = .ok plan) : ∃ kind, cfg.Asks N B kind ∧
      ∀ labels h before, Machine.run (step C ownId) (start plan) labels = some (h, before) →
        ∀ l h' outs, h.step C ownId l = some (h', outs) → h.Confined C ownId kind l outs ∧
          (cfg.role ≠ .connect → ∀ sid o, .out sid o ∈ outs → ¬ TimedSession.IsClip o) := by
  obtain ⟨kind, hstarts, hasks⟩ := StartPlan.kind_of_config hplan
  refine ⟨kind, hasks, ?_⟩
  intro labels h before hrun l h' outs hstep
  have htied : h.Tied C ownId kind :=
    Machine.run_invariant (I := fun h _ => h.Tied C ownId kind)
      (fun _ _ _ _ _ ht hs => ht.step hs) (tied_start hstarts) hrun
  have hconfined := htied.confined hstep
  refine ⟨hconfined, ?_⟩
  intro hrole sid o ho hclip
  -- a card setup proves no application key, so it has no stream to pump
  have hsetup := hasks.isCardSetup hrole
  have hnone : ∀ conn, ¬ h.Pumps C ownId kind conn := by
    rintro conn ⟨s, memory, hist, p, -, -, -, hproved⟩
    rcases kind with (_ | _) | (_ | _)
    · cases hsetup
    · exact hproved
    · cases hsetup
    · exact hproved
  cases o with
  | frame conn f => exact hnone conn (hconfined.writes sid conn f ho).2
  | event e =>
    cases e with
    | itemReceived text again =>
      obtain ⟨conn, _, -, hpumps⟩ := hconfined.surfaces sid text again ho
      exact hnone conn hpumps
    | _ => exact hclip
  | _ => exact hclip

end Step

section Sample

open Sample Duocb.Runtime

/-- The peer of the sample configuration connects, and proves its key; then the application hands
over a text, which the loop queues for the session and the session takes up once it has pulled. -/
def handsOver : List HandleLabel :=
  (peerPairs.drop 1).map .net ++ [.net (.own (.pump .written)), .call (.sendClipboard "hello"),
    .net (.command (.sendClipboard "hello") []), .net (.own (.pump (.takeItem 7)))]

/-- Whether a handle was given the text and nothing else, and writes it next. -/
def writesHello (h : DuocbHandle) : Bool :=
  decide (h.given = ["hello"]) && (h.step keyed hostId (.net (.own (.pump .written)))).any
    fun r => r.2.contains (.out 0 (.frame ⟨0, joinerId⟩ (ClipMsg.item "hello" 7).toFrame))

/-- The loop of a new handle takes the command of its session first. -/
lemma step_start (plan : StartPlan) :
    (start plan).step keyed hostId (.net (.command plan.sessionCmd [])) =
      (Runtime.init.step keyed hostId (.command plan.sessionCmd [])).map fun r =>
        ({ start plan with commands := [], net := r.1 }, r.2) := by
  simp [step, start, RuntimeLabel.taken]

/-- The handle of the sample configuration comes to write the text. The command of the session is
taken by the lemma above, so that no card is compared; the rest of the run only carries the cards.
-/
lemma connectPlan_writes : ∃ h before,
    Machine.run (step keyed hostId) (start connectPlan)
      (.net (.command connectPlan.sessionCmd []) :: handsOver) = some (h, before) ∧
    writesHello h = true := by
  have hwrites : ((Runtime.init.step keyed hostId (.command connectPlan.sessionCmd [])).any
      fun r => (Machine.run (step keyed hostId)
        { start connectPlan with commands := [], net := r.1 } handsOver).any
          fun t => writesHello t.1) = true := by decide +kernel
  obtain ⟨⟨net, outs⟩, hfirst, hrest⟩ := (Option.any_eq_true _ _).1 hwrites
  obtain ⟨⟨h, after⟩, hrun, hwrites⟩ := (Option.any_eq_true _ _).1 hrest
  refine ⟨h, outs ++ after, Machine.run_cons_eq_some.2 ⟨_, outs, after, ?_, hrun, rfl⟩, hwrites⟩
  rw [step_start, hfirst]
  rfl

/-- **The host of a configuration writes the text that it was handed over** to the peer that was
chosen, after the peer has proved its key: the theorem is applied to the step that writes.

**Proof sketch.** The configuration is planned by a lemma, and the run to the last step is one too.
The theorem is then applied to the step that writes the frame. -/
theorem serves_plan_sample : ∃ plan kind h before h' outs,
    buildStartPlan .ofJson .standard connectConfig = .ok plan ∧
    connectConfig.Asks .ofJson .standard kind ∧
    Machine.run (step keyed hostId) (start plan) (.net (.command plan.sessionCmd []) :: handsOver) =
      some (h, before) ∧
    h.step keyed hostId (.net (.own (.pump .written))) = some (h', outs) ∧
    .out 0 (.frame ⟨0, joinerId⟩ (ClipMsg.item "hello" 7).toFrame) ∈ outs ∧
    (ClipMsg.item "hello" 7).toFrame.Carries ["hello"] ∧
    h.Pumps keyed hostId kind ⟨0, joinerId⟩ := by
  obtain ⟨kind, hasks, hruns⟩ := serves_plan keyed hostId connectConfig_plan
  obtain ⟨h, before, hrun, hwrites⟩ := connectPlan_writes
  obtain ⟨hgiven, hany⟩ := Bool.and_eq_true_iff.1 hwrites
  have hgiven : h.given = ["hello"] := of_decide_eq_true hgiven
  obtain ⟨⟨h', outs⟩, hstep, hmem⟩ := (Option.any_eq_true _ _).1 hany
  have hmem := List.contains_iff_mem.1 hmem
  obtain ⟨hconfined, -⟩ := hruns _ h before hrun _ h' outs hstep
  obtain ⟨hcarries, hpumps⟩ := hconfined.writes 0 _ _ hmem
  rw [hgiven] at hcarries
  exact ⟨connectPlan, kind, h, before, h', outs, connectConfig_plan, hasks, hrun, hstep, hmem,
    hcarries, hpumps⟩

end Sample

end DuocbHandle

end Duocb
