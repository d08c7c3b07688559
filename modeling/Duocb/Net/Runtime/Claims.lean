import Duocb.Net.Runtime
import Duocb.Net.Session.Invariant

set_option relaxedAutoImplicit false
set_option autoImplicit false

/-!
# Claims over whole runs

A claim is taken once and keeps its holder. The command loop hands it from one session to the next
exactly as long as the session stays the same from the user's point of view: same keys, same
channel, and nobody ended it in between.

## Main definitions

* `Duocb.PairClaim.Kept` — what any calls leave of a claim.
* `Duocb.Auth.call?` — the call that an authentication is about to make.
* `Duocb.Runtime.Last` — the last session that was started, and what was put out since.
* `Duocb.Runtime.Sound` — what holds of the loop's memory and its task in every reachable state.

## Main results

* `Duocb.PairClaim.kept` — a claim that calls have led to is kept.
* `Duocb.Runtime.sound` — a claim is held by whom its session key allows.
* `Duocb.Auth.Of.not_trespasses` — no session proves a PIN to a claim that a key holds.
* `Duocb.Runtime.claim_across_sessions` — when a session starts with the claim of the one before.
-/

namespace Duocb

/-! ## A claim and any calls on it -/

namespace PairClaim

/-- What any calls leave of a claim: a call is granted exactly to the holder, or to anybody while
there is none, if and only if it does not trespass; the holder stays; only a caller that proved the
claimed key changes the recorded node id; and the signal has fired exactly if there is a holder. -/
structure Kept (claim : PairClaim) : Prop where
  granted : ∀ l, ((claim.call l).1 = true ↔
    claim.holder = none ∨ claim.holder = some l.caller) ↔ ¬ l.Trespasses claim
  holder : ∀ o, claim.holder = some o → ∀ ls claim', Machine.exec callStep claim ls = some claim' →
    claim'.holder = some o
  nodeId : ∀ l c c', claim.peer = some c → (claim.call l).2.peer = some c' →
    c'.nodeId ≠ c.nodeId → ∃ k n, l = .key k n ∧ c.applicationKey = some k ∧ c'.nodeId = some n
  paired : claim.paired = claim.peer.isSome

/-- **A claim that calls have led to is kept.**

**Proof sketch.** By the lemmas about one call: what is granted, who holds the claim after more
calls, and what a call can change. -/
theorem kept {claim : PairClaim} (h : Machine.Reachable callStep .empty claim) : claim.Kept where
  granted := granted_iff claim
  holder o ho ls claim' hrun := holder_exec ho hrun
  nodeId l c c' hc hc' hne := by
    rcases call_peer hc l with he | ⟨k, n, rfl, hk, he⟩
    · rw [he, hc] at hc'
      obtain rfl := Option.some.inj hc'
      exact absurd rfl hne
    · rw [he] at hc'
      obtain rfl := Option.some.inj hc'
      exact ⟨k, n, rfl, hk, rfl⟩
  paired := by
    refine Machine.reachable_invariant (I := fun c => c.paired = c.peer.isSome) rfl ?_ h
    intro c l c' hI hstep
    obtain rfl : (c.call l).2 = c' := Option.some.inj hstep
    exact paired_call hI l

/-- A free claim refuses nobody. -/
lemma empty_open (l : Call) (remoteId : EndpointId) (allowNewTransport : Bool) :
    (empty.call l).1 = true ∧ empty.serveable remoteId allowNewTransport = true :=
  ⟨(call_fst_iff _ l).2 (Or.inl (Or.inl rfl)), rfl⟩

end PairClaim

/-- What a step does to the memory it was lent is a step of its claim, or none. -/
lemma Lent.reachable {memory memory' : SessionMemory} (h : Lent memory memory')
    (hr : Machine.Reachable PairClaim.callStep .empty memory.claim) :
    Machine.Reachable PairClaim.callStep .empty memory'.claim := by
  rcases h.claim with he | ⟨l, he⟩
  · rw [he]
    exact hr
  · exact hr.next (a := l) (by rw [he]; rfl)

/-- Whether an entry of the record starts a session. -/
def RuntimeOut.IsStarted : RuntimeOut → Prop
  | .started _ _ _ _ => True
  | _ => False

/-- Whether an output starts a session is read off. -/
instance (o : RuntimeOut) : Decidable o.IsStarted :=
  match o with
  | .started _ _ _ _ => .isTrue trivial
  | .out _ _ | .event _ | .forgot => .isFalse id

/-! ## The calls that sessions make -/

namespace Auth

variable {C : Crypto} {ownId : EndpointId} {kind : SessionKind} {conn : Conn} {auth : Auth}
  {memory : SessionMemory}

/-- The call on the claim that an authentication is about to make. -/
def call? (auth : Auth) : Option PairClaim.Call :=
  match auth.prog with
  | .call (.commitKey key) _ => some (.key key auth.policy.remoteId)
  | .call .commitPin _ => some (.pin auth.policy.remoteId)
  | _ => none

/-- **No authentication of a session trespasses.** Only a card setup asks for a claim with a PIN,
and no key ever holds the claim of a card setup.

**Proof sketch.** A key call does not trespass. A PIN call is made by a card setup only, and there
the key that holds a claim would be the session's own, which it has not. -/
lemma Of.not_trespasses (h : auth.Of C ownId kind conn memory.claim)
    (hkey : memory.key = sessionKey kind) (hholds : memory.key.Holds memory.claim)
    {l : PairClaim.Call} (hcall : auth.call? = some l) : ¬ l.Trespasses memory.claim := by
  unfold call? at hcall
  split at hcall
  · obtain rfl := Option.some.inj hcall
    exact PairClaim.not_trespasses_key _ _ _
  · rename_i k hprog
    have hdue := h.due hprog
    rcases kind with mode | spec
    · obtain ⟨passwords, hcand, slot, hv⟩ := hdue
      obtain ⟨card, channel, relays, hk⟩ := h.verified hcand hv
      rw [hkey, hk] at hholds
      exact PairClaim.not_trespasses_of_pin hholds l
    · exact hdue.elim
  · cases hcall

end Auth

namespace Runtime

variable {C : Crypto} {ownId : EndpointId} {r r' : Runtime} {l : RuntimeLabel}
  {outs out : List RuntimeOut}

/-! ## The memory and the task -/

/-- What holds of the loop's memory and its task. -/
structure Sound (C : Crypto) (ownId : EndpointId) (r : Runtime) : Prop where
  exclusive : r.Exclusive
  memory : ∀ m, r.memory = some m →
    m.key.Holds m.claim ∧ Machine.Reachable PairClaim.callStep .empty m.claim
  task : ∀ s, r.task = some s → ∃ m, r.memory = some m ∧ s.Inv C ownId m

/-- A memory that is remembered or new. -/
lemma remember_cases (memory : Option SessionMemory) (key : SessionKey) :
    (memory = some (remember memory key) ∧ (remember memory key).key = key) ∨
      (remember memory key = .new key ∧ ∀ m, memory = some m → m.key ≠ key) := by
  cases memory with
  | none => exact Or.inr ⟨rfl, fun m hm => by cases hm⟩
  | some m =>
    by_cases hk : m.key = key
    · refine Or.inl ⟨by rw [remember, if_pos hk], remember_key _ _⟩
    · refine Or.inr ⟨by rw [remember, if_neg hk], fun m' hm => ?_⟩
      obtain rfl := Option.some.inj hm
      exact hk

/-- What is remembered of a sound memory is sound. -/
lemma remember_sound {memory : Option SessionMemory} {key : SessionKey}
    (h : ∀ m, memory = some m →
      m.key.Holds m.claim ∧ Machine.Reachable PairClaim.callStep .empty m.claim) :
    (remember memory key).key.Holds (remember memory key).claim ∧
      Machine.Reachable PairClaim.callStep .empty (remember memory key).claim := by
  rcases remember_cases memory key with ⟨he, -⟩ | ⟨he, -⟩
  · exact h _ he
  · rw [he]
    exact ⟨SessionKey.holds_empty key, .refl _⟩

/-- A task that was just spawned has nothing to answer for but its memory. -/
lemma inv_start {sid : ℕ} {kind : SessionKind} {m : SessionMemory} (hkey : m.key = sessionKey kind)
    (hholds : m.key.Holds m.claim) : (Session.start sid kind).Inv C ownId m :=
  .of_no_conn hkey hholds (Or.inl trivial)

/-- The invariant of a task is about its kind and its phase only. -/
lemma inv_congr {s s' : Session} {m : SessionMemory} (h : s.Inv C ownId m)
    (hkind : s'.kind = s.kind)
    (hphase : s'.phase = s.phase) : s'.Inv C ownId m where
  key := by rw [hkind, h.key]
  holds := h.holds
  auth conn auth hp := by rw [hkind]; exact h.auth conn auth (hphase ▸ hp)
  pump conn hist p hp := by rw [hkind]; exact h.pump conn hist p (hphase ▸ hp)
  trade conn mode hp hk := h.trade conn mode (hphase ▸ hp) (hkind ▸ hk)

/-- **Every step keeps the loop sound.**

**Proof sketch.** By the list of the steps of the loop. A step of the task keeps its own invariant,
and a session starts from a memory that holds what its key allows. -/
lemma sound_of_step (hr : r.Sound C ownId) (h : r.step C ownId l = some (r', out)) :
    r'.Sound C ownId := by
  refine ⟨exclusive_of_step hr.exclusive h, ?_, ?_⟩
  · intro m hm
    cases step_cases hr.exclusive h with
    | own l s s' memory memory' outs htask hmem hstep =>
      obtain ⟨-, hmem', -⟩ := withTask_task r s' memory'
      obtain rfl : memory' = m := Option.some.inj (hmem'.symm.trans hm)
      obtain ⟨m', hm', hinv⟩ := hr.task s htask
      obtain rfl : memory = m' := Option.some.inj (hmem.symm.trans hm')
      exact ⟨(hinv.step hstep).holds,
        (Session.step_lent hstep).reachable (hr.memory memory hmem).2⟩
    | starts l kind =>
      obtain rfl : remember r.memory (sessionKey kind) = m := Option.some.inj hm
      exact remember_sound hr.memory
    | forgets => cases hm
    | asked => exact hr.memory m hm
    | answered => exact hr.memory m hm
    | cancels => exact hr.memory m hm
    | ends => exact hr.memory m hm
  · intro s hs
    cases step_cases hr.exclusive h with
    | own l s₁ s' memory memory' outs htask hmem hstep =>
      obtain ⟨htask', hmem', -⟩ := withTask_task r s' memory'
      obtain rfl : s' = s := Option.some.inj (htask'.symm.trans hs)
      obtain ⟨m', hm', hinv⟩ := hr.task s₁ htask
      obtain rfl : memory = m' := Option.some.inj (hmem.symm.trans hm')
      exact ⟨memory', hmem', hinv.step hstep⟩
    | asked cmd paths s₁ s' hidle hsession hsame hphase =>
      rw [task_of_receiving (by exact hidle)] at hs
      obtain rfl : s' = s := Option.some.inj hs
      obtain ⟨m, hm, hinv⟩ := hr.task s₁ (by rw [task_of_receiving hidle, hsession])
      exact ⟨m, hm, inv_congr hinv hsame.kind hphase⟩
    | answered => exact hr.task s hs
    | cancels cmd paths s₁ hidle hsession =>
      obtain rfl : ({ s₁ with cancelled := true } : Session) = s := Option.some.inj hs
      obtain ⟨m, hm, hinv⟩ := hr.task s₁ (by rw [task_of_receiving hidle, hsession])
      exact ⟨m, hm, inv_congr hinv rfl rfl⟩
    | starts l kind =>
      obtain rfl : Session.start r.sessions kind = s := Option.some.inj hs
      exact ⟨_, rfl, inv_start (remember_key _ _) (remember_sound hr.memory).1⟩
    | forgets l hgone =>
      have : r.session = some s := hs
      rw [hgone] at this
      cases this
    | ends loop l hgone hfree =>
      unfold task at hs
      split at hs
      · rename_i s₁ cmd hloop
        exact absurd hloop (hfree s₁ cmd)
      · have : r.session = some s := hs
        rw [hgone] at this
        cases this

/-- **A claim is held by whom its session key allows**, in every reachable state. -/
theorem sound {labels : List RuntimeLabel} (h : Ran C ownId labels r outs) : r.Sound C ownId :=
  Machine.run_invariant (I := fun r _ => r.Sound C ownId)
    (fun _ _ _ _ _ hI hs => sound_of_step hI hs)
    ⟨fun _ _ h => by (cases h), fun _ h => by (cases h), fun _ h => by (cases h)⟩ h

/-! ## From one session to the next -/

/-- The last session that was started, with the number of its memory, and what was put out since. -/
def Last (outs : List RuntimeOut) (kind : SessionKind) (n : ℕ) (since : List RuntimeOut) : Prop :=
  ∃ before sid claim, outs = before ++ .started sid kind n claim :: since ∧
    ∀ o ∈ since, ¬ o.IsStarted

/-- Outputs that start no session are put out since the last one started.

**Proof sketch.** The last start is not among the new outputs, so that all of these come after it.
-/
lemma last_append (hout : ∀ o ∈ out, ¬ o.IsStarted) {kind : SessionKind} {n : ℕ}
    {since : List RuntimeOut} : Last (outs ++ out) kind n since ↔
      ∃ since', Last outs kind n since' ∧ since = since' ++ out := by
  constructor
  · rintro ⟨before, sid, claim, he, hsince⟩
    rcases List.append_eq_append_iff.1 he with ⟨as, rfl, hright⟩ | ⟨cs, rfl, hright⟩
    · exact absurd trivial (hout (.started sid kind n claim) (by simp [hright]))
    · rcases cs with _ | ⟨c, cs⟩
      · have hmem : .started sid kind n claim ∈ [] ++ out := hright ▸ List.mem_cons_self
        exact absurd trivial (hout _ hmem)
      · obtain ⟨rfl, rfl⟩ := List.cons.inj hright
        exact ⟨cs, ⟨before, sid, claim, rfl, fun o ho => hsince o (List.mem_append_left _ ho)⟩, rfl⟩
  · rintro ⟨since', ⟨before, sid, claim, rfl, hsince⟩, rfl⟩
    refine ⟨before, sid, claim, by simp, fun o ho => ?_⟩
    rcases List.mem_append.1 ho with ho | ho
    · exact hsince o ho
    · exact hout o ho

/-- A session that was just started is the last one. -/
lemma last_started {sid n n' : ℕ} {kind kind' : SessionKind} {claim : PairClaim}
    {since : List RuntimeOut} (h : Last (outs ++ [.started sid kind n claim]) kind' n' since) :
    kind' = kind ∧ n' = n ∧ since = [] := by
  obtain ⟨before, sid', claim', he, hsince⟩ := h
  rcases List.eq_nil_or_concat since with rfl | ⟨since', o, rfl⟩
  · obtain ⟨-, he⟩ := List.append_inj' he rfl
    cases he
    exact ⟨rfl, rfl, rfl⟩
  · rw [List.concat_eq_append, ← List.cons_append, ← List.append_assoc] at he
    obtain ⟨-, he⟩ := List.append_inj' he rfl
    cases he
    exact absurd trivial (hsince (.started sid kind n claim) (by simp))

/-- What the record tells of the memory: before the first session there is none; since the last one
it is the memory of that session's key, until it is forgotten. -/
structure Recorded (r : Runtime) (outs : List RuntimeOut) : Prop where
  first : (∀ o ∈ outs, ¬ o.IsStarted) → r.memory = none
  last : ∀ kind n since, Last outs kind n since → r.memories = n ∧
    (r.memory = none ↔ .forgot ∈ since) ∧ ∀ m, r.memory = some m → m.key = sessionKey kind

/-- Outputs that neither start a session nor forget a memory. -/
lemma Recorded.quiet (h : r.Recorded outs) (hstarted : ∀ o ∈ out, ¬ o.IsStarted)
    (hforgot : .forgot ∉ out) (hmemories : r'.memories = r.memories)
    (hnone : r'.memory = none ↔ r.memory = none)
    (hkey : ∀ m', r'.memory = some m' → ∃ m, r.memory = some m ∧ m'.key = m.key) :
    r'.Recorded (outs ++ out) where
  first hall := hnone.2 (h.first fun o ho => hall o (List.mem_append_left _ ho))
  last kind n since hlast := by
    obtain ⟨since', hlast', rfl⟩ := (last_append hstarted).1 hlast
    obtain ⟨hn, hforget, hkeys⟩ := h.last kind n since' hlast'
    refine ⟨hmemories.trans hn, ?_, fun m' hm' => ?_⟩
    · rw [hnone, hforget, List.mem_append, or_iff_left hforgot]
    · obtain ⟨m, hm, hk⟩ := hkey m' hm'
      rw [hk, hkeys m hm]

/-- Every step keeps the record true.

**Proof sketch.** By the list of the steps of the loop. Only the start of a session hands out a
memory, and it is recorded there. The other steps change no key of a memory. -/
lemma recorded_of_step (hex : r.Exclusive) (hr : r.Recorded outs)
    (h : r.step C ownId l = some (r', out)) : r'.Recorded (outs ++ out) := by
  cases step_cases hex h with
  | own l s s' memory memory' os htask hmem hstep =>
    obtain ⟨-, hmem', hmemories, -⟩ := withTask_task r s' memory'
    refine hr.quiet (fun o ho => ?_) (by simp) hmemories (by simp [hmem, hmem']) fun m hm => ?_
    · obtain ⟨o', -, rfl⟩ := List.mem_map.1 ho
      exact id
    · obtain rfl : memory' = m := Option.some.inj (hmem'.symm.trans hm)
      exact ⟨memory, hmem, (Session.step_lent hstep).key⟩
  | asked => exact hr.quiet (by simp) (by simp) rfl Iff.rfl fun m hm => ⟨m, hm, rfl⟩
  | answered =>
    refine hr.quiet (fun o ho => ?_) (by simp) rfl Iff.rfl fun m hm => ⟨m, hm, rfl⟩
    rw [List.mem_singleton.1 ho]
    exact id
  | cancels => exact hr.quiet (by simp) (by simp) rfl Iff.rfl fun m hm => ⟨m, hm, rfl⟩
  | starts l kind =>
    constructor
    · intro hall
      exact absurd trivial (hall _ (List.mem_append_right _ (List.mem_singleton_self _)))
    · intro kind' n since hlast
      obtain ⟨rfl, rfl, rfl⟩ := last_started hlast
      refine ⟨rfl, by simp [startSession], fun m hm => ?_⟩
      obtain rfl : remember r.memory (sessionKey kind') = m := Option.some.inj hm
      exact remember_key _ _
  | forgets =>
    have hstarted : ∀ o ∈ [RuntimeOut.forgot, .event (.status .idle)], ¬ o.IsStarted := by
      intro o ho
      rcases List.mem_pair.1 ho with rfl | rfl <;> exact id
    constructor
    · exact fun _ => rfl
    · intro kind n since hlast
      obtain ⟨since', hlast', rfl⟩ := (last_append hstarted).1 hlast
      exact ⟨(hr.last kind n since' hlast').1, by simp, fun m hm => by cases hm⟩
  | ends => exact hr.quiet (by simp) (by simp) rfl Iff.rfl fun m hm => ⟨m, hm, rfl⟩

/-- The record of every run is true. -/
lemma recorded {labels : List RuntimeLabel} (h : Ran C ownId labels r outs) : r.Recorded outs := by
  have hI : r.Exclusive ∧ r.Recorded outs :=
    Machine.run_invariant (I := fun r outs => r.Exclusive ∧ r.Recorded outs)
      (fun _ _ _ _ _ hI hs => ⟨exclusive_of_step hI.1 hs, recorded_of_step hI.1 hI.2 hs⟩)
      ⟨fun _ _ h => (by cases h), fun _ => rfl, fun _ _ _ h => by
        obtain ⟨before, sid, claim, he, -⟩ := h
        simp at he⟩ h
  exact hI.2

/-- A step that starts a session starts it with what is remembered.

**Proof sketch.** By the list of the steps: only one of them puts out a start. -/
lemma started_cases (hex : r.Exclusive) (h : r.step C ownId l = some (r', out)) {sid n : ℕ}
    {kind : SessionKind} {claim : PairClaim} (hstart : .started sid kind n claim ∈ out) :
    claim = (remember r.memory (sessionKey kind)).claim ∧
      n = if r.memory.any fun m => m.key = sessionKey kind then r.memories else r.memories + 1 := by
  cases step_cases hex h with
  | starts l kind' =>
    cases List.mem_singleton.1 hstart
    exact ⟨rfl, rfl⟩
  | own => simp at hstart
  | asked => simp at hstart
  | answered => simp at hstart
  | cancels => simp at hstart
  | forgets => simp at hstart
  | ends => simp at hstart

/-- **Claims across sessions.** A claim that any calls have led to keeps its holder, and a call is
granted exactly to the holder, or to anybody while there is none, if and only if it does not
trespass.

In every run of the command loop no call trespasses. A hosting clipboard session that starts is lent
the memory of the session before it exactly if the session keys agree and the memory was not
forgotten in between; then it finds that session's claim as it was left, and otherwise, or if it is
the first session, a free one, which refuses nobody. While it runs, its claim is free or held by
the one peer it is for.

**Proof sketch.** The first part is a case analysis of the two calls. For runs, the record of what
was put out tells the key of the memory at hand, and whether there is one; a session that starts
looks at nothing else. Only a card setup commits a PIN, and its claim is never held by a key. -/
theorem claim_across_sessions (C : Crypto) (ownId : EndpointId) :
    (∀ claim, Machine.Reachable PairClaim.callStep .empty claim → claim.Kept) ∧
    ∀ (labels : List RuntimeLabel) (r : Runtime) (outs : List RuntimeOut),
      Ran C ownId labels r outs →
      (∀ m, r.memory = some m → m.key.Holds m.claim ∧
        Machine.Reachable PairClaim.callStep .empty m.claim) ∧
      (∀ s m conn auth l, r.task = some s → r.memory = some m →
        s.phase = .authenticating conn auth → auth.call? = some l → ¬ l.Trespasses m.claim) ∧
      ∀ l r' out sid identity peer channel n claim, r.step C ownId l = some (r', out) →
        .started sid (.server (.key identity peer channel)) n claim ∈ out →
        ((∀ o ∈ outs, ¬ o.IsStarted) → claim = .empty) ∧
        ∀ kind₁ n₁ since, Last outs kind₁ n₁ since →
          (n = n₁ ↔ sessionKey (.server (.key identity peer channel)) = sessionKey kind₁ ∧
            .forgot ∉ since) ∧
          (n = n₁ → ∃ m, r.memory = some m ∧ claim = m.claim) ∧
          (n ≠ n₁ → claim = .empty ∧ ∀ l remoteId allowNewTransport, (claim.call l).1 = true ∧
            claim.serveable remoteId allowNewTransport = true) := by
  refine ⟨fun claim h => PairClaim.kept h, fun labels r outs hrun => ?_⟩
  have hsound := sound hrun
  refine ⟨hsound.memory, fun s m conn auth l htask hmem hphase hcall => ?_,
    fun l r' out sid identity peer channel n claim hstep hstart => ?_⟩
  · obtain ⟨m', hm', hinv⟩ := hsound.task s htask
    obtain rfl : m = m' := Option.some.inj (hmem.symm.trans hm')
    exact (hinv.auth conn auth hphase).not_trespasses hinv.key hinv.holds hcall
  obtain ⟨hclaim, hn⟩ := started_cases hsound.exclusive hstep hstart
  generalize sessionKey (.server (.key identity peer channel)) = key at hclaim hn ⊢
  have hrecord := recorded hrun
  constructor
  · intro hfirst
    rw [hclaim, hrecord.first hfirst]
    rfl
  intro kind₁ n₁ since hlast
  obtain ⟨rfl, hforgot, hkey⟩ := hrecord.last kind₁ n₁ since hlast
  rcases remember_cases r.memory key with ⟨hmem, hk⟩ | ⟨hnew, hother⟩
  · -- the memory at hand is that of the key
    have hany : (r.memory.any fun m => m.key = key) = true := by
      rw [hmem]
      simpa using hk
    rw [if_pos hany] at hn
    subst hn
    refine ⟨⟨fun _ => ⟨?_, ?_⟩, fun _ => rfl⟩, fun _ => ⟨_, hmem, hclaim⟩, fun h => absurd rfl h⟩
    · rw [← hk, hkey _ hmem]
    · rw [← hforgot, hmem]
      simp
  · -- there is none, or that of another key
    have hany : (r.memory.any fun m => m.key = key) = false := by
      cases hm : r.memory with
      | none => rfl
      | some m => simpa using hother m hm
    rw [hany] at hn
    have hne : n ≠ r.memories := by
      rw [hn]
      simp
    refine ⟨⟨fun h => absurd h hne, fun ⟨hkeys, hnot⟩ => ?_⟩, fun h => absurd h hne, fun _ => ?_⟩
    · rw [← hforgot] at hnot
      obtain ⟨m, hm⟩ := Option.ne_none_iff_exists'.1 hnot
      exact absurd ((hkey m hm).trans hkeys.symm) (hother m hm)
    · have hempty : claim = .empty := by
        rw [hclaim, hnew]
        rfl
      rw [hempty]
      exact ⟨rfl, PairClaim.empty_open⟩

section Sample

open Sample

/-- The host and its peer, and the peer's card. -/
def hostKey : PublicKey := .filled 1

/-- The peer's key, -/
def peerKey : PublicKey := .filled 2

/-- and its card. -/
def peerCard : IdentityCard := ⟨peerKey, "peer", 0, 10, "card"⟩

/-- **A claim that a key holds is granted to a PIN**: the device has proved its key, and proves a
PIN from the same node id. -/
theorem key_claim_granted_to_pin : ∃ claim,
    Machine.exec PairClaim.callStep .empty [.key peerKey joinerId] = some claim ∧
    (claim.call (.pin joinerId)).1 = true ∧ claim.holder ≠ none ∧
    claim.holder ≠ some (PairClaim.Call.pin joinerId).caller :=
  ⟨_, rfl, rfl, by simp [PairClaim.holder, PairClaim.call, PairClaim.commitKey, PairClaim.empty],
    by simp [PairClaim.holder, PairClaim.call, PairClaim.commitKey, PairClaim.empty,
      PairClaim.Call.caller]⟩

/-- Primitives under which the peer's signature checks. -/
def keyed : Crypto :=
  { plain with
    parseKey := fun s => if s = peerKey.toHex then some peerKey else none
    verifyAuthSignature := fun key _ proof =>
      if key = peerKey ∧ proof = "sig-d" then .ok () else .error (.msg "Invalid signature") }

/-- The device hosts for its peer. -/
def hostMode : ServerMode :=
  .key ⟨⟨hostKey⟩, ⟨hostKey, "host", 0, 10, "card"⟩, [peerCard], []⟩ peerKey .lanOnly

/-- The peer connects, and proves its key. The run is that of a clipboard host, from its start to
the acceptance of the peer. -/
def peerPairs : List RuntimeLabel :=
  [.command (.startServer hostMode) [], .own (.begin 0), .own (.bound (.ok ())),
    .own (.incoming ⟨0, joinerId⟩)] ++
  [.io ⟨.sessionStream, .ok ()⟩,
    .io ⟨.read MAX_CONTROL_MESSAGE_SIZE,
      .ok (AuthRequest.keyRequest peerKey.toHex "nonce-d").toFrame⟩,
    .policy 0, .io ⟨.randomNonce, "nonce-l"⟩,
    .io ⟨.signAuth (KeyAuth.authTranscript "listener" peerKey hostKey "nonce-d" "nonce-l"
      joinerId.toString hostId.toString), "sig-l"⟩,
    .io ⟨.write (KeyChallenge.new hostKey.toHex "nonce-l" "sig-l").toFrame, .ok ()⟩,
    .io ⟨.read MAX_CONTROL_MESSAGE_SIZE, .ok (KeyProof.new "sig-d").toFrame⟩,
    .policy 0, .io ⟨.write AuthResponse.accept.toFrame, .ok ()⟩].map fun l => .own (.auth l none)

/-- The user starts the session again, and its old task closes its endpoint. -/
def hostRestarts : List RuntimeLabel :=
  peerPairs ++ [.command (.startServer hostMode) [], .own .cancelled, .own .closed]

/-- Whether the next session of this run is the same session, on the memory of the first one, and
the peer holds its claim. -/
def restartsHeld : Bool :=
  match Machine.run (step keyed hostId) init hostRestarts with
  | some (r, .started 0 kind 1 _ :: since) =>
    kind = .server hostMode && since.all (fun o => !decide o.IsStarted) &&
      !since.contains .forgot &&
      match step keyed hostId r .joined with
      | some (_, [.started 1 kind' 1 claim]) =>
        kind' = .server hostMode && claim.holder = some (.inl peerKey)
      | _ => false
  | _ => false

/-- **A session that is started again finds the claim as its peer left it**: held by the peer's key.
A call with this key is granted from any node id, and one with another key from none.

**Proof sketch.** The run is computed up to the step that starts the session again. The theorem is
applied to it, with the claim that the peer has left. -/
theorem claim_across_sessions_sample : ∃ r outs r' claim, Ran keyed hostId hostRestarts r outs ∧
    r.step keyed hostId .joined = some (r', [.started 1 (.server hostMode) 1 claim]) ∧
    (∃ m, r.memory = some m ∧ claim = m.claim) ∧ claim.holder = some (.inl peerKey) ∧
    (∀ n, (claim.call (.key peerKey n)).1 = true) ∧
    ∀ k n, k ≠ peerKey → (claim.call (.key k n)).1 = false := by
  have hc : restartsHeld = true := by decide +kernel
  unfold restartsHeld at hc
  split at hc
  case h_2 => cases hc
  rename_i r kind claim₀ since hrun
  obtain ⟨hpre, hstart⟩ := Bool.and_eq_true_iff.1 hc
  obtain ⟨hpre, hforgot⟩ := Bool.and_eq_true_iff.1 hpre
  obtain ⟨hkind, hsince⟩ := Bool.and_eq_true_iff.1 hpre
  obtain rfl := of_decide_eq_true hkind
  split at hstart
  case h_2 => cases hstart
  rename_i r' kind' claim hstep
  obtain ⟨hkind', hholder⟩ := Bool.and_eq_true_iff.1 hstart
  obtain rfl := of_decide_eq_true hkind'
  have hholder : claim.holder = some (.inl peerKey) := of_decide_eq_true hholder
  obtain ⟨hkept, hruns⟩ := claim_across_sessions keyed hostId
  obtain ⟨hmemory, -, hstarts⟩ := hruns _ _ _ hrun
  obtain ⟨-, hlast⟩ := hstarts _ _ _ _ _ _ _ _ _ hstep (List.mem_singleton_self _)
  obtain ⟨hsame, hlent, -⟩ := hlast (.server hostMode) 1 since ⟨[], 0, claim₀, rfl, fun o ho => by
    simpa using List.all_eq_true.1 hsince o ho⟩
  obtain ⟨m, hm, rfl⟩ := hlent (hsame.2 ⟨rfl, by simpa using hforgot⟩)
  have hgranted := fun k n => ((hkept _ (hmemory m hm).2).granted (.key k n)).2
    (PairClaim.not_trespasses_key m.claim k n)
  refine ⟨r, _, r', _, hrun, hstep, ⟨m, hm, rfl⟩, hholder, fun n => ?_, fun k n hne => ?_⟩
  · exact (hgranted peerKey n).2 (Or.inr hholder)
  · refine Bool.eq_false_iff.2 fun htrue => ?_
    rcases (hgranted k n).1 htrue with hfree | hheld
    · rw [hholder] at hfree
      cases hfree
    · exact hne (Sum.inl.inj (Option.some.inj (hheld.symm.trans hholder)))

end Sample

end Runtime

end Duocb
