import Duocb.Library.Machine
import Duocb.PinAuth
import Duocb.Net

set_option relaxedAutoImplicit false
set_option autoImplicit false

/-!
# The pair claim and the memory of a logical session

A serve endpoint is paired with one peer for the lifetime of one logical session. The claim and the
recent PIN passwords are owned by the command loop and lent to every session task started under the
same key, so they survive a session task that ends.

## Main definitions

* `Duocb.PairClaim` — who holds the claim; `commitKey` and `commitPin` ask for it.
* `Duocb.PairClaim.serveable` — the gate before authentication.
* `Duocb.PairClaim.holder`, `Duocb.PairClaim.call`, `Duocb.PairClaim.Call.caller` — who a claim
  belongs to, the calls that ask for it, and who makes them.
* `Duocb.PairClaim.Call.Trespasses` — a PIN is proved from the node id of a key that holds the
  claim.
* `Duocb.RecentPins` — the PIN passwords a card-setup host still honours.
* `Duocb.SessionMemory`, `Duocb.remember` — what outlives a session task, and under which key.

## Main results

* `Duocb.PairClaim.commitKey_true`, `Duocb.PairClaim.commitPin_true` — who holds the claim after it
  was granted.
* `Duocb.PairClaim.granted_iff`, `Duocb.PairClaim.call_peer` — when a call is granted to the holder
  alone, and all it can change.
* `Duocb.PairClaim.holder_exec` — once there is a holder, it stays the same.
* `Duocb.remember_key` — a session never runs on the memory of another key.
-/

namespace Duocb

/-- The peer that holds a claim, plus the material needed to let it reconnect. -/
structure ClaimedPeer where
  /-- Configure mode claims the stable application identity. Card setup has none. -/
  applicationKey : Option PublicKey
  nodeId : Option EndpointId
  deriving DecidableEq

/-- The single peer a serve endpoint is paired with. -/
structure PairClaim where
  peer : Option ClaimedPeer
  /-- Set the first time a peer commits the claim. -/
  paired : Bool
  deriving DecidableEq

namespace PairClaim

/-- A claim without a holder. -/
def empty : PairClaim := ⟨none, false⟩

/-- Commit a freshly authenticated key as the pair. A claim that is held is granted to the same key
only, whose node id is then the new one. -/
def commitKey (claim : PairClaim) (publicKey : PublicKey) (nodeId : EndpointId) :
    Bool × PairClaim :=
  match claim.peer with
  | some c =>
    if c.applicationKey ≠ some publicKey then (false, claim)
    else (true, { claim with peer := some { c with nodeId := some nodeId } })
  | none => (true, ⟨some ⟨some publicKey, some nodeId⟩, true⟩)

/-- Commit a card-setup joiner as the pair. -/
def commitPin (claim : PairClaim) (nodeId : EndpointId) : Bool × PairClaim :=
  match claim.peer with
  | some c => if c.nodeId ≠ some nodeId then (false, claim) else (true, claim)
  | none => (true, ⟨some ⟨none, some nodeId⟩, true⟩)

/-- A claim that was granted to a key is held by that key, at the node id that proved it.

**Proof sketch.** The two branches of the source: a claim that is held compares its key, and a free
one takes the caller. -/
lemma commitKey_true {claim claim' : PairClaim} {k : PublicKey} {n : EndpointId}
    (h : claim.commitKey k n = (true, claim')) :
    ∃ c, claim'.peer = some c ∧ c.applicationKey = some k ∧ c.nodeId = some n := by
  unfold commitKey at h
  split at h
  · split at h
    · simp at h
    · rename_i hk
      obtain rfl := (Prod.mk.inj h).2
      exact ⟨_, rfl, not_not.1 hk, rfl⟩
  · obtain rfl := (Prod.mk.inj h).2
    exact ⟨_, rfl, rfl, rfl⟩

/-- A claim that was refused is unchanged. -/
lemma commitKey_false {claim claim' : PairClaim} {k : PublicKey} {n : EndpointId}
    (h : claim.commitKey k n = (false, claim')) : claim' = claim := by
  unfold commitKey at h
  split at h
  · split at h
    · exact (Prod.mk.inj h).2.symm
    · simp at h
  · simp at h

/-- A claim that was granted to a node id is held by it.

**Proof sketch.** The two branches of the source: a claim that is held compares its node id, and a
free one takes the caller. -/
lemma commitPin_true {claim claim' : PairClaim} {n : EndpointId}
    (h : claim.commitPin n = (true, claim')) : ∃ c, claim'.peer = some c ∧ c.nodeId = some n := by
  unfold commitPin at h
  split at h
  · rename_i c hc
    split at h
    · simp at h
    · rename_i hn
      obtain rfl := (Prod.mk.inj h).2
      exact ⟨c, hc, not_not.1 hn⟩
  · obtain rfl := (Prod.mk.inj h).2
    exact ⟨_, rfl, rfl⟩

/-- Whether a connection may be served: with an empty claim any may. A claim recognizes its peer by
node id; a claim of an application key may let another node id reach authentication when
`allowNewTransport` is set. -/
def serveable (claim : PairClaim) (remoteId : EndpointId) (allowNewTransport : Bool) : Bool :=
  match claim.peer with
  | none => true
  | some c =>
    decide (c.nodeId = some remoteId) || (c.applicationKey.isSome && allowNewTransport)

/-- During a live pump only the claimed node id passes the gate. -/
lemma serveable_pump {claim : PairClaim} {remoteId : EndpointId} {c : ClaimedPeer}
    (hc : claim.peer = some c) :
    claim.serveable remoteId false = true ↔ c.nodeId = some remoteId := by
  simp [serveable, hc]

/-! ### Sequences of calls -/

/-- A call on a claim. It is made once an authentication has succeeded, by the method that it has
used. -/
inductive Call where
  /-- A dialer proved an application key. -/
  | key (publicKey : PublicKey) (nodeId : EndpointId)
  /-- A dialer proved a PIN. -/
  | pin (nodeId : EndpointId)
  deriving DecidableEq

/-- What a call answers, and the claim afterwards. -/
def call (claim : PairClaim) : Call → Bool × PairClaim
  | .key publicKey nodeId => claim.commitKey publicKey nodeId
  | .pin nodeId => claim.commitPin nodeId

/-- Who a claim belongs to: an application key, or the node id of a PIN claim. -/
def holder (claim : PairClaim) : Option (PublicKey ⊕ Option EndpointId) :=
  claim.peer.map fun c =>
    match c.applicationKey with
    | some key => .inl key
    | none => .inr c.nodeId

/-- Who makes a call: the application key that was proved, or the node id that proved a PIN. -/
def Call.caller : Call → PublicKey ⊕ Option EndpointId
  | .key publicKey _ => .inl publicKey
  | .pin nodeId => .inr (some nodeId)

/-- A PIN is proved from the node id at which an application key holds the claim. The caller has not
proved that key, so it is not the holder. -/
def Call.Trespasses (claim : PairClaim) (l : Call) : Prop :=
  ∃ k n, l = .pin n ∧ claim.peer = some ⟨some k, some n⟩

/-- A call that trespasses is not the holder's. -/
lemma Call.Trespasses.ne_holder {claim : PairClaim} {l : Call} (h : l.Trespasses claim) :
    ¬ (claim.holder = none ∨ claim.holder = some l.caller) := by
  obtain ⟨k, n, rfl, hpeer⟩ := h
  simp [holder, hpeer, Call.caller]

/-- **When a call is granted**: the claim is free, or the holder makes the call, or the call
trespasses. A key is compared with the key that holds the claim. A PIN is compared by its node id
alone, and a claim that a key holds has one, too. -/
lemma call_fst_iff (claim : PairClaim) (l : Call) : (claim.call l).1 = true ↔
    (claim.holder = none ∨ claim.holder = some l.caller) ∨ l.Trespasses claim := by
  obtain ⟨peer, paired⟩ := claim
  rcases peer with _ | ⟨key, node⟩
  · cases l <;> simp [call, commitKey, commitPin, holder]
  cases l with
  | key k n =>
    cases key <;> simp [call, commitKey, holder, Call.caller, Call.Trespasses, apply_ite Prod.fst]
  | pin n =>
    cases key <;> simp [call, commitPin, holder, Call.caller, Call.Trespasses, apply_ite Prod.fst]

/-- A call is granted exactly to the holder, or to anybody while there is none, unless it
trespasses. -/
lemma granted_iff (claim : PairClaim) (l : Call) :
    ((claim.call l).1 = true ↔ claim.holder = none ∨ claim.holder = some l.caller) ↔
      ¬ l.Trespasses claim := by
  rw [call_fst_iff]
  constructor
  · exact fun h htres => htres.ne_holder (h.1 (Or.inr htres))
  · exact fun h => ⟨fun hg => hg.resolve_right h, Or.inl⟩

/-- A proof of a key never trespasses. -/
lemma not_trespasses_key (claim : PairClaim) (publicKey : PublicKey) (nodeId : EndpointId) :
    ¬ (Call.key publicKey nodeId).Trespasses claim := by
  rintro ⟨k, n, he, -⟩
  cases he

/-- A claim that no key holds is not trespassed on. -/
lemma not_trespasses_of_pin {claim : PairClaim} (h : ∀ c, claim.peer = some c →
    c.applicationKey = none) (l : Call) : ¬ l.Trespasses claim := by
  rintro ⟨k, n, -, hpeer⟩
  cases h _ hpeer

/-- **All a call can change of a claim that is held**: the node id of a caller that proved the
claimed application key.

**Proof sketch.** By the kind of the call. A key call writes the node id once the keys agree. A PIN
call on a held claim writes nothing. -/
lemma call_peer {claim : PairClaim} {c : ClaimedPeer} (hc : claim.peer = some c) (l : Call) :
    (claim.call l).2 = claim ∨ ∃ k n, l = .key k n ∧ c.applicationKey = some k ∧
      (claim.call l).2 = { claim with peer := some { c with nodeId := some n } } := by
  cases l with
  | key k n =>
    simp only [call, commitKey, hc]
    split_ifs with hk
    · exact Or.inl rfl
    · exact Or.inr ⟨k, n, rfl, not_not.1 hk, rfl⟩
  | pin n =>
    simp only [call, commitPin, hc]
    split_ifs with hn
    · exact Or.inl rfl
    · exact Or.inl rfl

/-- A call on a free claim gives it to its caller, and fires the signal. -/
lemma call_free {claim : PairClaim} (hc : claim.peer = none) (l : Call) :
    ∃ c, (claim.call l).2 = ⟨some c, true⟩ ∧ c.nodeId.isSome ∧
      (claim.call l).2.holder = some l.caller := by
  cases l with
  | key k n =>
    have he : (claim.call (.key k n)).2 = ⟨some ⟨some k, some n⟩, true⟩ := by
      simp [call, commitKey, hc]
    exact ⟨_, he, rfl, by rw [he]; rfl⟩
  | pin n =>
    have he : (claim.call (.pin n)).2 = ⟨some ⟨none, some n⟩, true⟩ := by
      simp [call, commitPin, hc]
    exact ⟨_, he, rfl, by rw [he]; rfl⟩

/-- One call, as a step of a machine that never gets stuck. -/
def callStep (claim : PairClaim) (l : Call) : Option PairClaim := some (claim.call l).2

/-- A call keeps the holder. -/
lemma holder_call {claim : PairClaim} {o : PublicKey ⊕ Option EndpointId}
    (h : claim.holder = some o) (l : Call) : (claim.call l).2.holder = some o := by
  obtain ⟨c, hc, ho⟩ := Option.map_eq_some_iff.1 h
  rcases call_peer hc l with he | ⟨k, n, rfl, hk, he⟩
  · rw [he, h]
  · rw [he]
    rw [hk] at ho
    simp [holder, hk, ho]

/-- **Once there is a holder, it stays the same.** -/
theorem holder_exec {claim claim' : PairClaim} {o : PublicKey ⊕ Option EndpointId}
    {ls : List Call} (h : claim.holder = some o)
    (hrun : Machine.exec callStep claim ls = some claim') : claim'.holder = some o := by
  refine Machine.reachable_invariant (I := fun c => c.holder = some o) h (fun c l c' hc hstep => ?_)
    ⟨ls, hrun⟩
  obtain rfl : (c.call l).2 = c' := Option.some.inj hstep
  exact holder_call hc l

/-- The signal has fired exactly if there is a holder. -/
lemma paired_call {claim : PairClaim} (h : claim.paired = claim.peer.isSome) (l : Call) :
    (claim.call l).2.paired = (claim.call l).2.peer.isSome := by
  cases hc : claim.peer with
  | none =>
    obtain ⟨c, he, -, -⟩ := call_free hc l
    rw [he]
    rfl
  | some c =>
    rcases call_peer hc l with he | ⟨k, n, -, -, he⟩
    · rw [he, h]
    · rw [he]
      simpa [hc] using h

end PairClaim

/-- Current and previous PIN passwords, newest first. -/
abbrev RecentPins : Type := List PinPassword

/-- How many PIN passwords are kept. -/
def RECENT_PIN_CACHE : ℕ := PinAuth.PAKE_SLOTS

/-- Record a fresh PIN's password and drop the oldest ones. -/
def RecentPins.push (pins : RecentPins) (password : PinPassword) : RecentPins :=
  (password :: pins).take RECENT_PIN_CACHE

/-! ## Session memory -/

/-- What starts a session. -/
inductive SessionKind where
  | server (mode : ServerMode)
  | client (spec : DialSpec)
  deriving DecidableEq

/-- What a session's identity is bound to. Two sessions with equal keys are the same logical
session, so that the second one continues the first. -/
inductive SessionKey where
  | serverCardSetup (channel : SignalChannel)
  | serverKey (publicKey peerPublicKey : PublicKey) (channel : SignalChannel)
  | clientCardSetup (canonicalPin : String) (channel : SignalChannel)
  | clientKey (publicKey peerPublicKey : PublicKey) (channel : SignalChannel)
  deriving DecidableEq

/-- The key of a session. -/
def sessionKey : SessionKind → SessionKey
  | .server (.cardSetup _ channel _) => .serverCardSetup channel
  | .server (.key identity peer channel) => .serverKey identity.identity.publicKey peer channel
  | .client (.cardSetup pin _ _ channel _) => .clientCardSetup pin channel
  | .client (.key identity peer channel) => .clientKey identity.identity.publicKey peer channel

/-- The session that runs under the key of a hosting card setup is such a host. -/
lemma kind_of_key {kind : SessionKind} {channel : SignalChannel}
    (h : sessionKey kind = .serverCardSetup channel) :
    ∃ card relays, kind = .server (.cardSetup card channel relays) := by
  rcases kind with (_ | ⟨card, channel', relays⟩) | (_ | _) <;> simp [sessionKey] at h
  exact ⟨card, relays, by rw [h]⟩

/-- Pairing state for one logical session, owned by the command loop. It outlives the task that uses
it; a session of another key starts on a new one. -/
structure SessionMemory where
  key : SessionKey
  /-- Server: the one-pair-per-session claim. -/
  claim : PairClaim
  /-- Card-setup host: the recent rotation buckets' PIN passwords. -/
  recentPins : RecentPins
  deriving DecidableEq

/-- Fresh pairing state. -/
def SessionMemory.new (key : SessionKey) : SessionMemory := ⟨key, .empty, []⟩

/-- Reuse the held memory when the new session's key matches; start fresh otherwise. -/
def remember (memory : Option SessionMemory) (key : SessionKey) : SessionMemory :=
  match memory with
  | some m => if m.key = key then m else .new key
  | none => .new key

/-- What a task may do to the claim of the memory it was lent in one step: at most one call. -/
structure Lent (memory memory' : SessionMemory) : Prop where
  key : memory'.key = memory.key
  claim : memory'.claim = memory.claim ∨ ∃ l, memory'.claim = (memory.claim.call l).2

/-- A memory that nothing has changed is lent as it is. -/
lemma Lent.refl (memory : SessionMemory) : Lent memory memory := ⟨rfl, Or.inl rfl⟩

/-- A session never runs on the memory of another key. -/
lemma remember_key (memory : Option SessionMemory) (key : SessionKey) :
    (remember memory key).key = key := by
  unfold remember
  split
  · split
    · assumption
    · rfl
  · rfl

end Duocb
