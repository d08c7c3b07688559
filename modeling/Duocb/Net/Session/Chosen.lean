import Duocb.Net.Session.Dialing

set_option relaxedAutoImplicit false
set_option autoImplicit false

/-!
# Clipboard content and the chosen peer

A clipboard session is for one peer. Whoever dials a host, and whatever a dialer reaches: clip
frames are written to, and items are surfaced from, streams only whose handshake proved the key of
that peer. While such a stream is pumped, nothing but cancellation, its own end or a new connection
of the same endpoint takes its place.

## Main definitions

* `Duocb.ProvesPeer` — what the handshake of a stream has proved.
* `Duocb.TimedSession.Confined` — a step deals with the chosen peer only.

## Main results

* `Duocb.TimedSession.Serves.step` — every step keeps what is known of the pumped stream.
* `Duocb.TimedSession.only_chosen_peer` — every step of every run is confined to the chosen peer.
-/

namespace Duocb

/-- The handshake of a stream has proved the peer of a session. On a host, the peer is trusted, and
no other key was admitted. -/
def ProvesPeer (C : Crypto) (ownId : EndpointId) (identity : KeyIdentity) (peer : PublicKey)
    (kind : SessionKind) (conn : Conn) (hist : List HandshakeEvt) : Prop :=
  match kind with
  | .server _ => Auth.ListenerProved C identity.identity conn.remoteId ownId hist peer ∧
      (identity.peer peer).isSome ∧ ∀ key, ⟨.admitKey key, .ok ()⟩ ∈ hist → key = peer
  | .client _ => Auth.DialerProved C identity.identity conn.remoteId ownId hist peer

/-- An authentication of a clipboard session that succeeded has proved its peer.

**Proof sketch.** By the kind of the session. A dialer has proved the peer that it dialed. A host
has admitted no key but that of its peer, so that it is the one that was proved. -/
lemma provesPeer_of_done {C : Crypto} {ownId : EndpointId} {identity : KeyIdentity}
    {peer : PublicKey} {kind : SessionKind} {conn : Conn} {claim : PairClaim} {auth : Auth}
    {key : Option PublicKey} (hkind : kind.IsFor identity peer)
    (h : auth.Of C ownId kind conn claim) (hdone : auth.prog = .ret key) :
    ProvesPeer C ownId identity peer kind conn auth.hist := by
  have hproved := Session.proved_of_done h hdone (by cases hkind <;> rfl)
  cases hkind with
  | client channel => exact hproved
  | server channel =>
    have honly : ∀ key, ⟨.admitKey key, .ok ()⟩ ∈ auth.hist → key = peer := by
      intro key hadm
      obtain ⟨identity', channel', hk⟩ := h.admitted hadm
      cases hk
      rfl
    obtain ⟨hlistener, -⟩ := hproved
    refine ⟨hlistener, ?_, honly⟩
    obtain ⟨nonce, own, proof, hv⟩ := hlistener
    obtain ⟨now, hok⟩ := h.inv.admitted peer hv.admitted
    obtain ⟨listener, card, hl, hcard, -⟩ := Policy.admit_ok hok
    rw [h.keyAuth] at hl
    cases hl
    rw [hcard]
    rfl

namespace TimedSession

section Confinement

variable (C : Crypto) (ownId : EndpointId) (identity : KeyIdentity) (peer : PublicKey)
  (kind : SessionKind)

/-- A step of a clipboard session deals with its peer only. What is written and what is surfaced
belongs to the stream that is pumped, and a pump begins and ends as the source has it. -/
structure Confined (c : TimedSession) (l : TimedLabel) (c' : TimedSession) (outs : List Out) :
    Prop where
  /-- A clip frame goes to the connection at hand, which proved the peer. -/
  writes : ∀ conn f, .frame conn f ∈ outs → ∃ hist p, c.session.phase = .pumping conn hist p ∧
    ProvesPeer C ownId identity peer kind conn hist
  /-- An item is read from the connection at hand, which proved the peer. -/
  surfaces : ∀ text again, .event (.itemReceived text again) ∈ outs → ∃ conn hist p frame,
    c.session.phase = .pumping conn hist p ∧ l = .own (.pump (.read (.ok frame))) ∧
    ProvesPeer C ownId identity peer kind conn hist
  /-- A pump begins while there is none, on a connection whose own handshake has just proved the
  peer. -/
  begins : ∀ conn hist p, c'.session.phase = .pumping conn hist p →
    (∃ p', c.session.phase = .pumping conn hist p') ∨
    (¬ c.session.Pumping ∧ (∃ auth e, c.session.phase = .authenticating conn auth ∧
      hist = auth.hist ++ [e]) ∧ ProvesPeer C ownId identity peer kind conn hist)
  /-- A pump ends by cancellation, by itself, or for a new connection of the endpoint that holds the
  claim. -/
  ends : ∀ conn hist p, c.session.phase = .pumping conn hist p →
    (∃ p', c'.session.phase = .pumping conn hist p') ∨ c.session.cancelled = true ∨
    (∃ a r clip out, l = .own (.pump a) ∧ p.step c.session.clip a = some (.inr r, clip, out)) ∨
    ∃ next claimed, l = .own (.incoming next) ∧ c.memory.claim.peer = some claimed ∧
      claimed.nodeId = some next.remoteId

/-- What holds of a clipboard session over a whole run. -/
structure Serves (c : TimedSession) : Prop where
  isFor : c.session.kind = kind
  inv : c.session.Inv C ownId c.memory
  proves : ∀ conn hist p, c.session.phase = .pumping conn hist p →
    ProvesPeer C ownId identity peer kind conn hist

end Confinement

variable {C : Crypto} {ownId : EndpointId} {identity : KeyIdentity} {peer : PublicKey}
  {kind : SessionKind} {c c' : TimedSession} {l : TimedLabel} {outs : List Out}

/-- Where a pump comes from: it was there already, or the handshake of its connection has just
succeeded.

**Proof sketch.** By the list of the steps of a task. A pump is there after a step of the pump, or
after the end of a handshake. -/
lemma pumping_cases {s s' : Session} {memory memory' : SessionMemory} {a : SessionLabel}
    (h : Session.Stepped C ownId s memory a s' memory' outs) {conn : Conn}
    {hist : List HandshakeEvt} {p : Pump} (hphase : s'.phase = .pumping conn hist p) :
    (∃ p', s.phase = .pumping conn hist p') ∨ ∃ b auth auth' key,
      s.phase = .authenticating conn auth ∧ auth.step memory b = some (auth', memory') ∧
      auth'.prog = .ret key ∧ hist = auth'.hist := by
  cases h with
  | stay _ _ _ _ _ phase => exact Or.inl ⟨p, phase ▸ hphase⟩
  | pumps _ conn' hist' p₀ p₁ _ _ _ _ from_ _ _ phase =>
    cases phase.symm.trans hphase
    exact Or.inl ⟨p₀, from_⟩
  | paired b code conn' auth auth' key _ _ _ _ from_ step done _ _ phase =>
    cases phase.symm.trans hphase
    exact Or.inr ⟨b, auth, auth', key, from_, step, done, rfl⟩
  | move _ _ _ _ _ _ into => rw [hphase] at into; exact into.elim
  | unpaired _ _ _ _ _ _ _ _ _ _ _ _ into => rw [hphase] at into; exact into.elim
  | receives _ _ _ _ _ _ into => rw [hphase] at into; exact into.elim
  | begin_ _ _ _ _ _ _ _ phase => cases phase.symm.trans hphase
  | goOn _ _ _ _ _ _ _ _ _ _ phase => cases phase.symm.trans hphase
  | trades _ _ _ _ _ _ _ _ _ _ _ _ _ phase => cases phase.symm.trans hphase
  | exhausted _ _ _ _ _ _ _ _ _ _ _ _ _ _ phase => cases phase.symm.trans hphase
  | stops _ _ _ _ _ _ _ _ phase => cases phase.symm.trans hphase
  | preempts _ _ _ _ _ _ _ _ _ _ phase => cases phase.symm.trans hphase
  | closes _ _ _ _ _ _ phase => cases phase.symm.trans hphase
  | givesUp _ _ _ _ _ _ _ phase => cases phase.symm.trans hphase
  | returns => cases hphase
  | returnsIdle => cases hphase

/-- **Every step keeps what is known of the pumped stream.**

**Proof sketch.** A pump goes on, or it begins where a handshake has succeeded. That handshake has
proved the peer, by the invariant of the session. Time alone changes nothing. -/
lemma Serves.step (h : c.Serves C ownId identity peer kind) (hkind : kind.IsFor identity peer)
    (hstep : c.step C ownId l = some (c', outs)) : c'.Serves C ownId identity peer kind := by
  obtain ⟨a, s', memory', rfl, -, hs, rfl⟩ | ⟨-, hstill, -⟩ := own_or_still hstep
  · refine ⟨(kind_of_step hstep).trans h.isFor, h.inv.step hs, fun conn hist p hp => ?_⟩
    rcases pumping_cases (Session.step_cases hs) hp with
      ⟨p', hold⟩ | ⟨b, auth, auth', key, hauth, ha, hdone, rfl⟩
    · exact h.proves conn hist p' hold
    · obtain ⟨hof, -⟩ := (h.inv.auth conn auth hauth).step h.inv.key h.inv.holds ha
      rw [h.isFor] at hof
      exact provesPeer_of_done hkind hof hdone
  · refine ⟨hstill.kind.trans h.isFor, hstill.session_inv h.inv, fun conn hist p hp => ?_⟩
    exact h.proves conn hist p (hstill.phase ▸ hp)

/-- Clipboard content: a clip frame, or an item that is surfaced. -/
def IsClip : Out → Prop
  | .frame _ _ | .event (.itemReceived _ _) => True
  | _ => False

/-- Clipboard content is not quiet. -/
lemma IsClip.not_quiet {o : Out} (h : IsClip o) : ¬ o.Quiet := by
  unfold IsClip at h
  split at h
  · exact id
  · exact id
  · exact h.elim

/-- Clipboard content comes from a step of a pump.

**Proof sketch.** By the list of the steps of a task. The outputs of each of the others are written
out, and none is of the clipboard. -/
lemma clip_cases {s s' : Session} {memory memory' : SessionMemory} {a : SessionLabel}
    (h : Session.Stepped C ownId s memory a s' memory' outs) {o : Out} (hclip : IsClip o)
    (hmem : o ∈ outs) : ∃ conn hist p b r clip out, s.phase = .pumping conn hist p ∧ a = .pump b ∧
      p.step s.clip b = some (r, clip, out) ∧ o ∈ out.map (Session.pumpOut conn) := by
  cases h with
  | pumps b conn hist p p' clip' out _ _ from_ step =>
    exact ⟨conn, hist, p, b, .inl p', clip', out, from_, rfl, step, hmem⟩
  | goOn => cases hmem
  | exhausted | stops | preempts | givesUp =>
    simp only [List.mem_cons, List.not_mem_nil, or_false] at hmem
    rcases hmem with rfl | rfl | rfl <;> exact hclip.elim
  | receives _ _ _ _ _ _ _ _ outs_eq =>
    rcases outs_eq with rfl | rfl <;>
      simp only [List.mem_cons, List.not_mem_nil, or_false] at hmem <;>
      rcases hmem with rfl | rfl <;> exact hclip.elim
  | returnsIdle _ _ _ quiet =>
    rcases List.mem_append.1 hmem with hmem | hmem
    · exact absurd (quiet o hmem) hclip.not_quiet
    · obtain rfl := List.mem_singleton.1 hmem
      exact hclip.elim
  | _ => exact absurd (‹∀ o ∈ outs, o.Quiet› o hmem) hclip.not_quiet

/-- A clip frame is written by a step of the pump, to the stream that is pumped. -/
lemma frame_cases {s s' : Session} {memory memory' : SessionMemory} {a : SessionLabel}
    (h : Session.Stepped C ownId s memory a s' memory' outs) {conn : Conn} {f : Frame}
    (hmem : .frame conn f ∈ outs) : ∃ hist p b r clip out, s.phase = .pumping conn hist p ∧
      p.step s.clip b = some (r, clip, out) ∧ .frame f ∈ out := by
  obtain ⟨conn', hist, p, b, r, clip, out, hphase, -, hpump, ho⟩ :=
    clip_cases h (o := .frame conn f) trivial hmem
  obtain ⟨o, hput, he⟩ := List.mem_map.1 ho
  cases o with
  | event e => cases he
  | frame g =>
    obtain ⟨rfl, rfl⟩ := Out.frame.inj he
    exact ⟨hist, p, b, r, clip, out, hphase, hpump, hput⟩

/-- An item is surfaced when a frame was read from the stream that is pumped.

**Proof sketch.** It comes from a step of the pump, and of these only the one that reads a frame
puts out an event. -/
lemma item_cases {s s' : Session} {memory memory' : SessionMemory} {a : SessionLabel}
    (h : Session.Stepped C ownId s memory a s' memory' outs) {text : String} {again : Bool}
    (hmem : .event (.itemReceived text again) ∈ outs) : ∃ conn hist p frame,
      s.phase = .pumping conn hist p ∧ a = .pump (.read (.ok frame)) := by
  obtain ⟨conn, hist, p, b, r, clip, out, hphase, rfl, hpump, ho⟩ :=
    clip_cases h (o := .event (.itemReceived text again)) trivial hmem
  obtain ⟨o, hput, he⟩ := List.mem_map.1 ho
  cases o with
  | frame f => cases he
  | event e =>
    obtain rfl := Out.event.inj he
    cases Pump.step_cases hpump with
    | received frame => exact ⟨conn, hist, p, frame, hphase, rfl⟩
    | _ => simp at hput

/-- How a pump is left: it goes on, it is cancelled, it ends by itself, or the endpoint that holds
the claim has connected anew.

**Proof sketch.** By the list of the steps of a task: each one that leaves a pump is one of the
four. -/
lemma leaving_cases {s s' : Session} {memory memory' : SessionMemory} {a : SessionLabel}
    (h : Session.Stepped C ownId s memory a s' memory' outs) {conn : Conn}
    {hist : List HandshakeEvt} {p : Pump} (hphase : s.phase = .pumping conn hist p) :
    (∃ p', s'.phase = .pumping conn hist p') ∨ s.cancelled = true ∨
    (∃ b r clip out, a = .pump b ∧ p.step s.clip b = some (.inr r, clip, out)) ∨
    ∃ next, a = .incoming next ∧ (∃ mode, s.kind = .server mode) ∧
      memory.claim.serveable next.remoteId false = true := by
  have going : ¬ s.phase.Going := by
    rw [hphase]
    exact id
  have noPump : ¬ s.phase.NoPump := by
    rw [hphase]
    exact id
  cases h with
  | stay _ _ _ _ _ phase => exact Or.inl ⟨p, phase.trans hphase⟩
  | pumps _ conn' hist' p₀ p₁ _ _ _ _ from_ _ _ phase =>
    cases from_.symm.trans hphase
    exact Or.inl ⟨p₁, phase⟩
  | unpaired b conn' hist' p₀ r clip out _ _ _ from_ step =>
    cases from_.symm.trans hphase
    exact Or.inr (Or.inr (Or.inl ⟨b, r, clip, out, rfl, step⟩))
  | exhausted b conn' hist' p₀ r clip out _ _ _ from_ _ step =>
    cases from_.symm.trans hphase
    exact Or.inr (Or.inr (Or.inl ⟨b, r, clip, out, rfl, step⟩))
  | stops _ _ _ _ _ _ _ cancelled => exact Or.inr (Or.inl cancelled)
  | preempts _ next _ _ _ _ _ _ server serveable =>
    exact Or.inr (Or.inr (Or.inr ⟨next, rfl, server, serveable⟩))
  | move _ _ _ _ _ from_ => exact absurd from_ going
  | begin_ _ _ _ _ _ _ from_ => exact absurd from_ going
  | closes _ _ _ _ _ from_ => exact absurd from_ noPump
  | givesUp _ _ _ _ _ from_ => exact absurd from_ noPump
  | returns _ _ from_ => exact absurd from_ noPump
  | returnsIdle _ _ from_ => exact absurd from_ noPump
  | goOn _ _ _ _ _ _ _ _ from_ => cases from_.symm.trans hphase
  | paired _ _ _ _ _ _ _ _ _ _ from_ => cases from_.symm.trans hphase
  | trades _ _ _ _ _ _ _ _ _ _ from_ => cases from_.symm.trans hphase
  | receives _ _ _ _ _ from_ => cases from_.symm.trans hphase

/-- **A step of a clipboard session is confined to its peer.**

**Proof sketch.** By the list of the steps of a task. A clip frame and an event of the clipboard are
put out by a step of the pump only, and the pumped stream is the one of the peer. -/
lemma Serves.confined (h : c.Serves C ownId identity peer kind) (hkind : kind.IsFor identity peer)
    (hstep : c.step C ownId l = some (c', outs)) :
    c.Confined C ownId identity peer kind l c' outs := by
  obtain ⟨a, s', memory', rfl, -, hs, rfl⟩ | ⟨-, hstill, rfl⟩ := own_or_still hstep
  swap
  · exact ⟨by simp, by simp, fun conn hist p hp => Or.inl ⟨p, hstill.phase ▸ hp⟩,
      fun conn hist p hp => Or.inl ⟨p, hstill.phase.trans hp⟩⟩
  have hcases := Session.step_cases hs
  constructor
  · intro conn f hmem
    obtain ⟨hist, p, _, _, _, _, hphase, -⟩ := frame_cases hcases hmem
    exact ⟨hist, p, hphase, h.proves conn hist p hphase⟩
  · intro text again hmem
    obtain ⟨conn, hist, p, frame, hphase, rfl⟩ := item_cases hcases hmem
    exact ⟨conn, hist, p, frame, hphase, rfl, h.proves conn hist p hphase⟩
  · intro conn hist p hp
    have hproves := (h.step hkind hstep).proves conn hist p hp
    rcases pumping_cases hcases hp with ⟨p', hold⟩ | ⟨b, auth, auth', key, hauth, ha, hdone, rfl⟩
    · exact Or.inl ⟨p', hold⟩
    · obtain ⟨o, k, x, -, rfl, -⟩ := Auth.step_cases ha
      refine Or.inr ⟨?_, ⟨auth, ⟨o, x⟩, hauth, rfl⟩, hproves⟩
      rintro ⟨_, _, _, hp'⟩
      cases hauth.symm.trans hp'
  · intro conn hist p hp
    rcases leaving_cases hcases hp with hold | hcancel | ⟨b, r, clip, out, rfl, hend⟩ |
      ⟨next, rfl, ⟨mode, hmode⟩, hserve⟩
    · exact Or.inl hold
    · exact Or.inr (Or.inl hcancel)
    · exact Or.inr (Or.inr (Or.inl ⟨b, r, clip, out, rfl, hend⟩))
    · -- the claim has a holder, since the pumped stream was granted it
      have hproved := h.inv.pump conn hist p hp
      rw [h.isFor] at hproved hmode
      subst hmode
      cases hkind with
      | server channel =>
        obtain ⟨-, hclaim⟩ := hproved
        refine Or.inr (Or.inr (Or.inr ⟨next, _, rfl, hclaim, ?_⟩))
        exact (PairClaim.serveable_pump hclaim).1 hserve

/-- **Clipboard content reaches only the chosen peer.** In every run of a clipboard session, with
any dialers in any order: a clip frame is written to, and an item is surfaced from, a stream only
whose own handshake proved the peer of the session; one stream is pumped at a time, until it is
cancelled, ends by itself or is superseded by the endpoint that holds the claim; and each pump
begins with a proof of its own.

**Proof sketch.** The invariant holds at the start of a session and is kept by every step; each step
out of a state where it holds is confined. -/
theorem only_chosen_peer {sid now : ℕ} {memory : SessionMemory} {labels : List TimedLabel}
    {before : List Out} (hkind : kind.IsFor identity peer) (hkey : memory.key = sessionKey kind)
    (hholds : memory.key.Holds memory.claim)
    (hrun : Machine.run (step C ownId) (.start sid kind memory now) labels = some (c, before)) :
    ∀ l c' outs, c.step C ownId l = some (c', outs) →
      c.Confined C ownId identity peer kind l c' outs := by
  have hserves : c.Serves C ownId identity peer kind :=
    Machine.run_invariant (I := fun c _ => c.Serves C ownId identity peer kind)
      (fun c _ l c' outs h hstep => h.step hkind hstep)
      ⟨rfl, .of_no_conn hkey hholds (Or.inl trivial), fun _ _ _ h => by cases h⟩ hrun
  exact fun l c' outs hstep => hserves.confined hkind hstep

section Sample

open Sample

/-- The pump of a dialer writes the frame it opens with. -/
def opensPump : TimedLabel := .own (.pump .written)

/-- A dialer that has just connected writes to a stream that has proved its peer.

**Proof sketch.** The run is computed, with the step after it. The theorem is applied to that step.
-/
theorem only_chosen_peer_sample : ∃ c before, Machine.run (step keyed joinerId) dialer
    (firstDial ++ [verdict]) = some (c, before) ∧ ∃ c' outs conn frame hist p,
      c.step keyed joinerId opensPump = some (c', outs) ∧ .frame conn frame ∈ outs ∧
      c.session.phase = .pumping conn hist p ∧
      ProvesPeer keyed joinerId ⟨⟨ownKey⟩, ⟨ownKey, "dialer", 0, 10, "card"⟩,
        [peerCard], []⟩ peerKey
        dialSpec conn hist := by
  have hrun : ((Machine.run (step keyed joinerId) dialer (firstDial ++ [verdict])).any fun r =>
      (r.1.step keyed joinerId opensPump).any fun r' =>
        decide (.frame ⟨0, hostId⟩ ClipMsg.pullLatest.toFrame ∈ r'.2)) = true := by decide +kernel
  obtain ⟨⟨c, before⟩, hexec, hr⟩ := (Option.any_eq_true _ _).1 hrun
  obtain ⟨⟨c', outs⟩, hstep, hmem⟩ := (Option.any_eq_true _ _).1 hr
  have hconfined := only_chosen_peer (.client .lanOnly) rfl (SessionKey.holds_empty _) hexec
    opensPump c' outs hstep
  obtain ⟨hist, p, hphase, hproves⟩ := hconfined.writes _ _ (of_decide_eq_true hmem)
  exact ⟨c, before, hexec, c', outs, _, _, hist, p, hstep, of_decide_eq_true hmem, hphase, hproves⟩

end Sample

end TimedSession

end Duocb
