import Duocb.Net.Runtime.CardSetup

set_option relaxedAutoImplicit false
set_option autoImplicit false

/-!
# A new card setup

A card setup is one-shot, and the next one is meant to be open to any device. The command loop does
not tell the two apart: a host that starts under the key of the session before it is lent the memory
of that session, and a claim that a device has taken with its PIN is part of it. Only the user's own
end of a session, or a session under another key, makes the loop forget it.

The loop runs here beside a record of the logical session: its key, and whether a device has proved
a PIN to its host.

## Main definitions

* `Duocb.Setup`, `Duocb.Runtime.watchStep` — the record, and a step of the loop beside it.
* `Duocb.Setup.Spent` — a device has proved a PIN in the logical session of a key.
* `Duocb.PairClaim.Opens` — what a card-setup host that starts on a claim can do.

## Main results

* `Duocb.Session.claim_of_cardSetup` — the claim of a card setup is taken by a proved PIN, and by
  nothing else.
* `Duocb.Runtime.card_setup_fresh` — a card setup that starts is open exactly if no device has
  proved a PIN in its logical session.
* `Duocb.Runtime.second_setup_closed` — a second card setup, after the first one has traded cards.
-/

namespace Duocb

/-! ## Who takes the claim of a card setup -/

/-- After a proved PIN was answered the claim has a holder, whoever it is. -/
lemma PairClaim.commitPin_isSome (claim : PairClaim) (n : EndpointId) :
    (claim.commitPin n).2.peer.isSome = true := by
  unfold commitPin
  split
  · rename_i c hc
    split_ifs <;> rw [hc] <;> rfl
  · rfl

namespace Session

/-- A device proves a PIN: the handshake with it has come to ask for the claim, and is answered. It
is read off the state before the step, and not off the claim. -/
def provesPin (s : Session) : SessionLabel → Bool
  | .auth _ _ =>
    match s.phase with
    | .authenticating _ auth =>
      match auth.prog with
      | .call .commitPin _ => true
      | _ => false
    | _ => false
  | _ => false

variable {C : Crypto} {ownId : EndpointId} {s s' : Session} {memory memory' : SessionMemory}
  {l : SessionLabel} {outs : List Out}

/-- Apart from its handshakes, the host of a card setup leaves the claim alone.

**Proof sketch.** By the branches of the step function. Without an answer of a handshake none of
them hands out another claim. -/
lemma hostStep_claim {channel : SignalChannel} (hauth : ∀ a code, l ≠ .auth a code)
    (h : hostStep C ownId channel s memory l = some (s', memory', outs)) :
    memory'.claim = memory.claim := by
  unfold hostStep at h
  split at h
  case h_6 => exact absurd rfl (hauth _ _)
  case h_5 =>
    obtain ⟨-, -, rfl, -⟩ := cancel?_cases h
    rfl
  case h_4 =>
    split_ifs at h
    · obtain ⟨-, rfl, -⟩ := by simpa using h
      rfl
    · obtain ⟨-, rfl, -⟩ := by simpa using h
      rfl
  case h_14 =>
    -- the publisher has a share in the PINs only
    split at h
    · obtain ⟨⟨p', sh, es⟩, -, hres⟩ := Option.map_eq_some_iff.1 h
      obtain ⟨-, rfl, -⟩ := by simpa using hres
      rfl
    · cases h
  case h_15 => cases h
  all_goals
    obtain ⟨-, rfl, -⟩ := by simpa [failedToStart] using h
    rfl

/-- An answer of a handshake of the host of a card setup. -/
lemma hostStep_auth {channel : SignalChannel} {a : AuthLabel} {code : Option ℕ}
    (h : hostStep C ownId channel s memory (.auth a code) = some (s', memory', outs)) :
    ∃ conn auth auth', s.phase = .authenticating conn auth ∧
      auth.step memory a = some (auth', memory') := by
  cases hphase : s.phase with
  | authenticating conn auth =>
    simp only [hostStep, hphase] at h
    obtain ⟨auth', hstep, -⟩ := authStep_cases h
    exact ⟨conn, auth, auth', rfl, hstep⟩
  | _ => simp [hostStep, hphase] at h

/-- A PIN is proved by the operation that commits it, -/
lemma provesPin_commitPin {conn : Conn} {auth : Auth} {a : AuthLabel} {code : Option ℕ}
    {k : Ans .commitPin → Handshake (Option PublicKey)}
    (hphase : s.phase = .authenticating conn auth) (hprog : auth.prog = .call .commitPin k) :
    s.provesPin (.auth a code) = true := by
  simp only [provesPin, hphase, hprog]

/-- and by no other one. -/
lemma provesPin_other {conn : Conn} {auth : Auth} {a : AuthLabel} {code : Option ℕ} {o : Op}
    {k : Ans o → Handshake (Option PublicKey)} (hphase : s.phase = .authenticating conn auth)
    (hprog : auth.prog = .call o k) (hother : o ≠ .commitPin) :
    s.provesPin (.auth a code) = false := by
  simp only [provesPin, hphase, hprog]
  cases o with
  | commitPin => exact absurd rfl hother
  | _ => rfl

/-- **Only a proved PIN takes the claim of a card setup**, and it always does, unless another one
has.

**Proof sketch.** A step of a handshake calls for the claim only where the PIN has been proved, and
the call takes a free claim. The other steps of a host leave the claim alone. -/
theorem claim_of_cardSetup {card : IdentityCard} {channel : SignalChannel}
    {relays : List String} (hkind : s.kind = .server (.cardSetup card channel relays))
    (hinv : s.Inv C ownId memory) (h : s.step C ownId memory l = some (s', memory', outs)) :
    memory'.claim.peer.isSome = (memory.claim.peer.isSome || s.provesPin l) := by
  have hhost : hostStep C ownId channel s memory l = some (s', memory', outs) := by
    simpa only [Session.step, hkind] using h
  by_cases hauth : ∃ a code, l = .auth a code
  · obtain ⟨a, code, rfl⟩ := hauth
    obtain ⟨conn, auth, auth', hphase, hstep⟩ := hostStep_auth hhost
    obtain ⟨o, k, ans, hprog, -, hans⟩ := Auth.step_cases hstep
    cases o with
    | commitPin =>
      rw [provesPin_commitPin hphase hprog, Bool.or_true]
      rcases hans with ⟨hnone, -⟩ | ⟨now, claim, hans, rfl⟩
      · cases hnone
      · obtain rfl := (Prod.mk.inj (Option.some.inj hans)).2
        exact PairClaim.commitPin_isSome _ _
    | commitKey key =>
      -- a card setup has no key to admit
      have hdue := (hinv.auth conn auth hphase).due hprog
      rw [hkind] at hdue
      simp [HandshakeDue, Auth.ListenerDue, keyAuthOf] at hdue
    | admitKey key =>
      rw [provesPin_other hphase hprog (by simp), Bool.or_false]
      rcases hans with ⟨hnone, -⟩ | ⟨now, claim, hans, rfl⟩
      · cases hnone
      · obtain rfl := (Prod.mk.inj (Option.some.inj hans)).2
        rfl
    | candidates =>
      rw [provesPin_other hphase hprog (by simp), Bool.or_false]
      rcases hans with ⟨hnone, -⟩ | ⟨now, claim, hans, rfl⟩
      · cases hnone
      · obtain rfl := (Prod.mk.inj (Option.some.inj hans)).2
        rfl
    | _ =>
      rw [provesPin_other hphase hprog (by simp), Bool.or_false]
      rcases hans with ⟨-, rfl⟩ | ⟨now, claim, hans, -⟩
      · rfl
      · cases hans
  · have hnot : s.provesPin l = false := by
      cases l with
      | auth a code => exact absurd ⟨a, code, rfl⟩ hauth
      | _ => rfl
    rw [hostStep_claim (fun a code he => hauth ⟨a, code, he⟩) hhost, hnot, Bool.or_false]

end Session

/-! ## The record of a logical session -/

/-- The logical session that is under way: its key, and whether a device has proved a PIN to its
host. -/
structure Setup where
  key : Option SessionKey
  proved : Bool
  deriving DecidableEq

namespace Setup

/-- No session was started yet. -/
def init : Setup := ⟨none, false⟩

/-- The record after a step in which a PIN was proved or not: a session under another key begins a
new one, and the end of the memory ends it. -/
def after (w : Setup) (proved : Bool) : List RuntimeOut → Setup
  | .started _ kind _ _ :: _ =>
    if w.key = some (sessionKey kind) then w else ⟨some (sessionKey kind), false⟩
  | .forgot :: _ => .init
  | _ => { w with proved := w.proved || proved }

/-- A device has proved a PIN in the logical session of a key. -/
def Spent (w : Setup) (key : SessionKey) : Prop := w.key = some key ∧ w.proved = true

end Setup

/-- What a card-setup host that starts on a claim can do: it shows a PIN in its first turn, and lets
any device in that proves it: at the gate, in the PINs its handshake honours, and when the device
asks for the claim. -/
structure PairClaim.Opens (claim : PairClaim) : Prop where
  free : claim.peer = none
  shows : ∀ (C : Crypto) channel pins refresh cancelled pin ip,
    PinPublisher.minting.step C channel ⟨claim.paired, pins, refresh, cancelled⟩ (.mint pin ip) =
      some (.derivingKeys pin, ⟨claim.paired, pins, refresh, cancelled⟩,
        [.pinRotated ((formatPin pin).getD "") BUCKET_SECS (if channel.lan then ip else none)])
  serves : ∀ id, claim.serveable id false = true
  honours : ∀ id pins, (Policy.mk none true id claim.peer).snapshot pins = pins
  grants : ∀ id, (claim.commitPin id).1 = true

/-- A claim is open exactly if it has no holder.

**Proof sketch.** A claim that is open has no peer. One without a peer has fired no signal, and each
of the gates looks at these two only. -/
lemma PairClaim.opens_iff {claim : PairClaim} (hpaired : claim.paired = claim.peer.isSome) :
    claim.Opens ↔ claim.peer = none := by
  refine ⟨Opens.free, fun hfree => ?_⟩
  have hp : claim.paired = false := by rw [hpaired, hfree]; rfl
  constructor
  · exact hfree
  · intro C channel pins refresh cancelled pin ip
    simp [PinPublisher.step, hp]
  · intro id
    simp [serveable, hfree]
  · intro id pins
    simp [Policy.snapshot, Policy.pinClaimedByOther, hfree]
  · intro id
    simp [commitPin, hfree]

namespace Runtime

variable {C : Crypto} {ownId : EndpointId} {r r' : Runtime} {w : Setup} {l : RuntimeLabel}
  {outs out : List RuntimeOut}

/-- A device proves a PIN to the host that runs. -/
def provesPin (r : Runtime) : RuntimeLabel → Bool
  | .own l => r.task.any fun s => s.provesPin l
  | _ => false

/-- One step of the loop beside the record. -/
abbrev watchStep (C : Crypto) (ownId : EndpointId) :
    Runtime × Setup → RuntimeLabel → Option ((Runtime × Setup) × List RuntimeOut) :=
  Machine.beside (step C ownId) fun w r l out => w.after (r.provesPin l) out

/-- What holds of the loop and the record: the memory is that of the logical session, and the claim
of a card setup is taken exactly if a PIN was proved. -/
structure Watched (C : Crypto) (ownId : EndpointId) (r : Runtime) (w : Setup) : Prop where
  sound : r.Sound C ownId
  key : w.key = r.memory.map SessionMemory.key
  claim : ∀ m channel, r.memory = some m → m.key = .serverCardSetup channel →
    m.claim.peer.isSome = w.proved

/-- When the task moves, the claim of a card setup follows the record.

**Proof sketch.** The record counts the step as a proof exactly if the session does, and the claim
of the host is taken by such a step only. -/
lemma watched_of_own {l : SessionLabel} (h : r.Watched C ownId w)
    (hstep : r.step C ownId (.own l) = some (r', out)) :
    r'.Watched C ownId (w.after (r.provesPin (.own l)) out) := by
  have hsound := sound_of_step h.sound hstep
  obtain ⟨s, s', memory, memory', os, htask, hmem, hsess, rfl, rfl⟩ := own_cases hstep
  obtain ⟨-, hmem', -⟩ := withTask_task r s' memory'
  have hlent := Session.step_lent hsess
  have hafter : w.after (r.provesPin (.own l)) (os.map (.out s.sid)) =
      { w with proved := w.proved || s.provesPin l } := by
    have hp : r.provesPin (.own l) = s.provesPin l := by simp [provesPin, htask]
    rw [hp]
    cases os <;> rfl
  rw [hafter]
  refine ⟨hsound, ?_, fun m channel hm hkey => ?_⟩
  · rw [hmem', h.key, hmem]
    simp [hlent.key]
  · obtain rfl : memory' = m := Option.some.inj (hmem'.symm.trans hm)
    rw [hlent.key] at hkey
    obtain ⟨m', hm', hinv⟩ := h.sound.task s htask
    obtain rfl : memory = m' := Option.some.inj (hmem.symm.trans hm')
    obtain ⟨card, relays, hkind⟩ := kind_of_key (hinv.key.symm.trans hkey)
    rw [Session.claim_of_cardSetup hkind hinv hsess, h.claim memory channel hmem hkey]

/-- A session that starts goes on with the logical session of its key, or begins one.

**Proof sketch.** A session of the same key finds the memory, and the record goes on. Any other one
begins on a free claim, with a record that has no proof. -/
lemma watched_of_start (h : r.Watched C ownId w) (kind : SessionKind) (proved : Bool)
    (hsound : (r.startSession kind).1.Sound C ownId) :
    (r.startSession kind).1.Watched C ownId (w.after proved (r.startSession kind).2) := by
  have hafter : w.after proved (r.startSession kind).2 =
      if w.key = some (sessionKey kind) then w else ⟨some (sessionKey kind), false⟩ := rfl
  rw [hafter]
  rcases remember_cases r.memory (sessionKey kind) with ⟨hmem, hk⟩ | ⟨hnew, hother⟩
  · have hkey : w.key = some (sessionKey kind) := by
      rw [h.key, hmem]
      exact congrArg some hk
    rw [if_pos hkey]
    refine ⟨hsound, ?_, fun m channel hm hmkey => ?_⟩
    · rw [hkey]
      exact (congrArg some hk).symm
    · obtain rfl := Option.some.inj hm
      exact h.claim _ channel hmem hmkey
  · have hkey : w.key ≠ some (sessionKey kind) := by
      rw [h.key]
      intro he
      obtain ⟨m, hm, hmkey⟩ := Option.map_eq_some_iff.1 he
      exact hother m hm hmkey
    rw [if_neg hkey]
    refine ⟨hsound, ?_, fun m channel hm hmkey => ?_⟩
    · exact (congrArg some (remember_key _ _)).symm
    · obtain rfl := Option.some.inj hm
      rw [hnew]
      rfl

/-- A step that leaves the memory and proves no PIN leaves the record. -/
lemma Watched.quiet (h : r.Watched C ownId w) (hsound : r'.Sound C ownId)
    (hmemory : r'.memory = r.memory)
    (hafter : w.after false out = { w with proved := w.proved || false }) :
    r'.Watched C ownId (w.after false out) := by
  rw [hafter, Bool.or_false]
  exact ⟨hsound, hmemory ▸ h.key, fun m channel hm hkey => h.claim m channel (hmemory ▸ hm) hkey⟩

/-- **Every step keeps the record true.**

**Proof sketch.** By the list of the steps of the loop. A step of the task and a start have lemmas
of their own; the others start no session. -/
lemma watched_of_step (h : r.Watched C ownId w) (hstep : r.step C ownId l = some (r', out)) :
    r'.Watched C ownId (w.after (r.provesPin l) out) := by
  by_cases hown : ∃ a, l = .own a
  · obtain ⟨a, rfl⟩ := hown
    exact watched_of_own h hstep
  have hsound := sound_of_step h.sound hstep
  have hnot : r.provesPin l = false := by
    cases l with
    | own a => exact absurd ⟨a, rfl⟩ hown
    | _ => rfl
  rw [hnot]
  cases step_cases h.sound.exclusive hstep with
  | own a => exact absurd ⟨a, rfl⟩ hown
  | starts l kind => exact watched_of_start h kind false hsound
  | forgets l => exact ⟨hsound, rfl, fun m _ hm => by cases hm⟩
  | asked => exact h.quiet hsound rfl rfl
  | answered => exact h.quiet hsound rfl rfl
  | cancels => exact h.quiet hsound rfl rfl
  | ends => exact h.quiet hsound rfl rfl

/-- The record is true after every run. -/
lemma watched {labels : List RuntimeLabel}
    (h : Machine.run (watchStep C ownId) (init, .init) labels = some ((r, w), outs)) :
    r.Watched C ownId w :=
  Machine.run_invariant (I := fun s _ => s.1.Watched C ownId s.2)
    (fun _ _ _ _ _ hI hs => by
      obtain ⟨hstep, he⟩ := Machine.beside_eq_some.1 hs
      rw [he]
      exact watched_of_step hI hstep)
    ⟨⟨fun _ _ h => by (cases h), fun _ h => by (cases h), fun _ h => by (cases h)⟩, rfl,
      fun _ _ h => by cases h⟩ h

/-- **A new card setup**, in every run of the command loop: beside the run there is the record of
its logical session, and a card-setup host that starts is open to any device exactly if no device
has proved a PIN in the logical session it goes on with.

**Proof sketch.** The record is kept beside the run and follows it: its key is that of the memory at
hand, and it says that a PIN was proved exactly if the claim of that memory is taken, since nothing
but a proved PIN takes the claim of a card setup. A host that starts is lent the memory at hand if
its key is the same, and a fresh one otherwise. -/
theorem card_setup_fresh {labels : List RuntimeLabel} (hrun : Ran C ownId labels r outs) :
    ∃ w, Machine.run (watchStep C ownId) (init, .init) labels = some ((r, w), outs) ∧
      ∀ l r' out sid card channel relays n claim, r.step C ownId l = some (r', out) →
        .started sid (.server (.cardSetup card channel relays)) n claim ∈ out →
          (claim.Opens ↔ ¬ w.Spent (.serverCardSetup channel)) := by
  obtain ⟨w, hw⟩ :
    ∃ w, Machine.run (watchStep C ownId) (init, .init) labels = some ((r, w), outs) :=
    Machine.run_beside hrun Setup.init
  refine ⟨w, hw, fun l r' out sid card channel relays n claim hstep hstart => ?_⟩
  have hwatched := watched hw
  obtain ⟨hclaim, -⟩ := started_cases hwatched.sound.exclusive hstep hstart
  have hsound :=
    @remember_sound _ (sessionKey (.server (.cardSetup card channel relays))) hwatched.sound.memory
  rw [hclaim, PairClaim.opens_iff (PairClaim.kept hsound.2).paired]
  rcases remember_cases r.memory (sessionKey (.server (.cardSetup card channel relays))) with
    ⟨hmem, hk⟩ | ⟨hnew, hother⟩
  · have htaken := hwatched.claim _ channel hmem hk
    have hkey : w.key = some (.serverCardSetup channel) := by
      rw [hwatched.key, hmem]
      exact congrArg some hk
    rw [Setup.Spent, hkey, ← htaken, Option.isSome_iff_ne_none]
    simp
  · -- the memory is another session's, or there is none
    refine iff_of_true (by rw [hnew]; rfl) fun hspent => ?_
    obtain ⟨m, hm, hmkey⟩ := Option.map_eq_some_iff.1 (hwatched.key.symm.trans hspent.1)
    exact hother m hm hmkey

section Sample

open Sample

/-- The host's acceptance of the joiner's PIN. It confirms the slot that both sides have derived the
same key in. -/
def acceptance : Frame :=
  let ids := PinAuth.pakeIdentities 0 joinerId.toString hostId.toString
  let mac := match plain.pakeFinishB password ids.1 ids.2 0 (plain.pakeMsgA password 0) with
    | .ok key => PinAuth.confirmMac plain key .listener 0 joinerId.toString hostId.toString
    | .error _ => []
  (PinConfirm.accept 0 (plain.b64Encode mac)).toFrame

/-- The card setup on the local network. -/
def setupKind : SessionKind := .server (.cardSetup setupCard .lanOnly [])

/-- A card setup trades cards and ends. -/
def trades : List RuntimeLabel :=
  joined ++ [.own (.auth (.io ⟨.write acceptance, .ok ()⟩) none), .own (.exchanged (.ok setupCard)),
    .own .graceOver, .own .closed]

/-- The user starts a card setup on the local network. -/
def startsSetup : RuntimeLabel := .command (.startServer (.cardSetup setupCard .lanOnly [])) []

/-- A card setup trades cards and ends, and the user starts another one. -/
def tradesTwice : List RuntimeLabel := trades ++ [startsSetup]

/-- A card setup trades cards and ends, and the user stops it before anything else. -/
def tradesAndStops : List RuntimeLabel := trades ++ [.command .stopServer [], .joined]

/-- Whether the second setup of this run starts on a claim that is taken, after the first one has
received a card and reported that it is idle. -/
def startsClosed : Bool :=
  match Machine.run (step plain hostId) init tradesTwice with
  | some (r, outs) =>
    outs.contains (.out 0 (.event (.peerCardReceived setupCard))) &&
      outs.contains (.out 0 (.status .idle)) &&
      match step plain hostId r .joined with
      | some (_, [.started 1 kind 1 claim]) => kind = setupKind && claim.peer.isSome
      | _ => false
  | none => false

/-- **A second card setup is closed.** The first one has received a card and has reported that it is
idle; the second one starts on a claim that is not open.

**Proof sketch.** The run is computed. -/
theorem second_setup_closed : ∃ r outs r' claim, Ran plain hostId tradesTwice r outs ∧
    .out 0 (.event (.peerCardReceived setupCard)) ∈ outs ∧ .out 0 (.status .idle) ∈ outs ∧
    r.step plain hostId .joined = some (r', [.started 1 setupKind 1 claim]) ∧ ¬ claim.Opens := by
  have hc : startsClosed = true := by decide +kernel
  unfold startsClosed at hc
  split at hc
  · rename_i r outs hrun
    obtain ⟨hpre, hstart⟩ := Bool.and_eq_true_iff.1 hc
    obtain ⟨hcard, hidle⟩ := Bool.and_eq_true_iff.1 hpre
    split at hstart
    · rename_i r' kind claim hstep
      obtain ⟨hkind, hpeer⟩ := Bool.and_eq_true_iff.1 hstart
      obtain rfl := of_decide_eq_true hkind
      refine ⟨r, outs, r', claim, hrun, List.contains_iff_mem.1 hcard,
        List.contains_iff_mem.1 hidle, hstep, fun hopens => ?_⟩
      rw [hopens.free] at hpeer
      cases hpeer
    · cases hstart
  · cases hc

/-- Whether the next setup after this run starts with a fresh record, although the first one has
received a card. -/
def startsOpen : Bool :=
  match Machine.run (watchStep plain hostId) (init, .init) tradesAndStops with
  | some ((r, w), outs) =>
    outs.contains (.out 0 (.event (.peerCardReceived setupCard))) && w.key.isNone &&
      match step plain hostId r startsSetup with
      | some (_, [.started 1 kind 2 _]) => kind = setupKind
      | _ => false
  | none => false

/-- **A second card setup is open, once the user has stopped the first one.** A device has proved
the PIN of the first setup and traded cards with it; the second one starts on another memory, and
its claim is open to every device. -/
theorem card_setup_fresh_sample : ∃ r outs r' claim, Ran plain hostId tradesAndStops r outs ∧
    .out 0 (.event (.peerCardReceived setupCard)) ∈ outs ∧
    r.step plain hostId startsSetup = some (r', [.started 1 setupKind 2 claim]) ∧ claim.Opens := by
  have hsome : (Machine.run (step plain hostId) init tradesAndStops).isSome = true := by
    decide +kernel
  obtain ⟨⟨r, outs⟩, hrun⟩ := Option.isSome_iff_exists.1 hsome
  obtain ⟨w, hw, h⟩ := card_setup_fresh hrun
  have hc : startsOpen = true := by decide +kernel
  unfold startsOpen at hc
  rw [hw] at hc
  obtain ⟨hpre, hstart⟩ := Bool.and_eq_true_iff.1 hc
  obtain ⟨hcard, hkey⟩ := Bool.and_eq_true_iff.1 hpre
  split at hstart
  · rename_i r' kind claim hstep
    obtain rfl := of_decide_eq_true hstart
    refine ⟨r, outs, r', claim, hrun, List.contains_iff_mem.1 hcard, hstep,
      (h _ _ _ _ _ _ _ _ _ hstep (List.mem_singleton_self _)).2 fun hspent => ?_⟩
    rw [hspent.1] at hkey
    cases hkey
  · cases hstart

end Sample

end Runtime

end Duocb
