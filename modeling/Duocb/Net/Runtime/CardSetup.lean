import Duocb.Net.Runtime.Claims

set_option relaxedAutoImplicit false
set_option autoImplicit false

/-!
# One card setup, one device

A card-setup host gives itself away twice: when it accepts a PIN, and when it trades cards. Before
either it has taken the claim for the device at the other end, and a claim of a card setup names
that device for as long as it lives, whatever tasks it is lent to.

## Main definitions

* `Duocb.Runtime.Admits` — a card-setup host gives itself to a device.
* `Duocb.Runtime.Claimed` — the claim of a card setup is taken by a device.

## Main results

* `Duocb.Session.incoming_refused` — a taken claim turns away every other device.
* `Duocb.Runtime.card_setup_admits_one` — a card setup admits one device, and receives one card.
-/

namespace Duocb

/-- An output that surfaces the card of the other device. -/
def Out.IsCard : Out → Bool
  | .event (.peerCardReceived _) => true
  | _ => false

/-- What is quiet is no card. -/
lemma Out.Quiet.not_card {o : Out} (h : o.Quiet) : o.IsCard = false := by
  cases o with
  | event e => cases e <;> first | rfl | exact h.elim
  | _ => rfl

/-- What a pump surfaces is no card. -/
lemma Pump.step_no_card {p : Pump} {clip clip' : Clip} {l : PumpLabel} {s : PumpState}
    {out : List PumpOut} (h : p.step clip l = some (s, clip', out)) (conn : Conn) :
    ∀ o ∈ out.map (Session.pumpOut conn), o.IsCard = false := by
  cases Pump.step_cases h <;> simp [Session.pumpOut, Out.IsCard]

namespace Session

variable {C : Crypto} {ownId : EndpointId} {s s' : Session} {memory memory' : SessionMemory}
  {l : SessionLabel} {outs : List Out}

/-- **Cards are received once.** A step surfaces no card and does not lead back from the end of the
task, or it surfaces one and leads there.

**Proof sketch.** By the list of the steps of a task. Only the step that ends the exchange surfaces
a card, and it leads to the end of the task, which no step leaves. -/
lemma card_cases (h : s.step C ownId memory l = some (s', memory', outs)) :
    (outs.countP Out.IsCard = 0 ∧ (s.phase.Over → s'.phase.Over)) ∨
      (outs.countP Out.IsCard = 1 ∧ ¬ s.phase.Over ∧ s'.phase.Over) := by
  have none_of_quiet : ∀ {outs : List Out}, (∀ o ∈ outs, o.Quiet) → outs.countP Out.IsCard = 0 :=
    fun hq => List.countP_eq_zero.2 fun o ho => by simp [(hq o ho).not_card]
  cases step_cases h with
  | stay _ _ _ _ _ phase _ _ _ _ quiet =>
    exact Or.inl ⟨none_of_quiet quiet, fun hover => phase ▸ hover⟩
  | move _ _ _ _ _ from_ _ _ _ quiet =>
    refine Or.inl ⟨none_of_quiet quiet, fun hover => ?_⟩
    cases hp : s.phase <;> simp_all [Phase.Going, Phase.Over]
  | begin_ _ conn existing _ _ _ from_ _ _ quiet =>
    refine Or.inl ⟨none_of_quiet quiet, fun hover => ?_⟩
    cases hp : s.phase <;> simp_all [Phase.Going, Phase.Over]
  | goOn _ _ _ _ _ _ _ _ from_ =>
    exact Or.inl ⟨rfl, fun hover => by rw [from_] at hover; exact hover.elim⟩
  | paired _ _ _ _ _ _ _ _ _ _ from_ _ _ _ _ _ _ quiet =>
    exact Or.inl ⟨none_of_quiet quiet, fun hover => by rw [from_] at hover; exact hover.elim⟩
  | trades _ _ _ _ _ _ _ _ _ _ from_ _ _ _ _ quiet =>
    exact Or.inl ⟨none_of_quiet quiet, fun hover => by rw [from_] at hover; exact hover.elim⟩
  | pumps l conn hist p p' clip' out _ _ from_ step =>
    refine Or.inl ⟨List.countP_eq_zero.2 fun o ho => ?_, fun hover => ?_⟩
    · simp [Pump.step_no_card step conn o ho]
    · rw [from_] at hover
      exact hover.elim
  | unpaired l conn hist p r clip' out _ _ _ from_ _ _ _ _ quiet =>
    exact Or.inl ⟨none_of_quiet quiet, fun hover => by rw [from_] at hover; exact hover.elim⟩
  | exhausted l conn hist p r clip' out _ _ _ from_ =>
    exact Or.inl ⟨rfl, fun hover => by rw [from_] at hover; exact hover.elim⟩
  | stops l conn hist p _ _ from_ =>
    exact Or.inl ⟨rfl, fun hover => by rw [from_] at hover; exact hover.elim⟩
  | preempts conn next hist p _ _ from_ =>
    exact Or.inl ⟨rfl, fun hover => by rw [from_] at hover; exact hover.elim⟩
  | receives conn card _ _ _ from_ into _ outs_eq =>
    refine Or.inr ⟨?_, by rw [from_]; exact id, into⟩
    rcases outs_eq with rfl | rfl <;> rfl
  | closes _ _ _ _ _ _ phase _ _ quiet =>
    exact Or.inl ⟨none_of_quiet quiet, fun _ => by rw [phase]; trivial⟩
  | givesUp _ _ _ _ _ _ _ phase => exact Or.inl ⟨rfl, fun _ => by rw [phase]; trivial⟩
  | returns _ _ _ quiet => exact Or.inl ⟨none_of_quiet quiet, fun _ => trivial⟩
  | returnsIdle _ os _ quiet =>
    refine Or.inl ⟨?_, fun _ => trivial⟩
    rw [List.countP_append, none_of_quiet quiet]
    rfl

/-- A card-setup host gives itself to a device: it trades cards with it, or is about to write that
it accepts its PIN. -/
def Admits (s : Session) (n : EndpointId) : Prop :=
  ∃ conn, conn.remoteId = n ∧ (s.phase = .exchanging conn ∨
    ∃ auth slot mac k, s.phase = .authenticating conn auth ∧
      auth.prog = .call (.write (PinConfirm.accept slot mac).toFrame) k)

/-- **A host gives itself only to the device that holds the claim.** -/
lemma claimed_of_admits {mode : ServerMode} (h : s.Inv C ownId memory)
    (hkind : s.kind = .server mode) {n : EndpointId} (hn : s.Admits n) :
    ∃ c, memory.claim.peer = some c ∧ c.nodeId = some n := by
  obtain ⟨conn, rfl, hphase | ⟨auth, slot, mac, k, hphase, hprog⟩⟩ := hn
  · exact h.trade conn mode hphase hkind
  · have hof := h.auth conn auth hphase
    have hdue := hof.due hprog
    rw [hkind] at hdue
    obtain ⟨c, hc, hnode⟩ := hof.inv.committedPin (hdue slot mac rfl)
    exact ⟨c, hc, by rw [hnode, hof.remoteId]⟩

/-- **A taken claim turns away every other device** at once, before any authentication.

**Proof sketch.** The host serves a connection only if the claim is free or held at its node id, and
that is refuted by the two premises. -/
lemma incoming_refused {card : IdentityCard} {channel : SignalChannel} {relays : List String}
    {c : ClaimedPeer} {conn : Conn} (hkind : s.kind = .server (.cardSetup card channel relays))
    (hc : memory.claim.peer = some c) (hnode : c.nodeId ≠ some conn.remoteId)
    (h : s.step C ownId memory (.incoming conn) = some (s', memory', outs)) :
    s' = s ∧ memory' = memory ∧ outs = [.close conn SERVER_BUSY_CODE] := by
  simp only [Session.step, hkind] at h
  cases hphase : s.phase with
  | accepting =>
    have hserve : memory.claim.serveable conn.remoteId false = false := by
      simpa [PairClaim.serveable, hc] using hnode
    obtain ⟨rfl, rfl, rfl⟩ := by simpa [hostStep, hphase, hserve] using h
    exact ⟨rfl, rfl, rfl⟩
  | refusing =>
    obtain ⟨rfl, rfl, rfl⟩ := by simpa [hostStep, hphase] using h
    exact ⟨rfl, rfl, rfl⟩
  | _ => simp [hostStep, hphase] at h

end Session

namespace Runtime

variable {C : Crypto} {ownId : EndpointId} {r r' : Runtime} {l : RuntimeLabel}
  {outs out : List RuntimeOut}

/-! ## One device -/

/-- The running card-setup host gives itself to a device. -/
def Admits (r : Runtime) (n : EndpointId) : Prop :=
  ∃ s card channel relays, r.task = some s ∧
    s.kind = .server (.cardSetup card channel relays) ∧ s.Admits n

/-- The claim of a card setup is taken by a device. -/
def Claimed (r : Runtime) (n : EndpointId) : Prop :=
  ∃ m c channel, r.memory = some m ∧ m.key = .serverCardSetup channel ∧ m.claim.peer = some c ∧
    c.nodeId = some n

/-- The claim is held by one device at most. -/
lemma Claimed.unique {n n' : EndpointId} (h : r.Claimed n) (h' : r.Claimed n') : n = n' := by
  obtain ⟨m, c, -, hm, -, hc, hn⟩ := h
  obtain ⟨m', c', -, hm', -, hc', hn'⟩ := h'
  obtain rfl := Option.some.inj (hm.symm.trans hm')
  obtain rfl := Option.some.inj (hc.symm.trans hc')
  exact Option.some.inj (hn.symm.trans hn')

/-- A host gives itself only to the device that holds the claim. -/
lemma claimed_of_admits (hr : r.Sound C ownId) {n : EndpointId} (h : r.Admits n) : r.Claimed n := by
  obtain ⟨s, card, channel, relays, hs, hkind, hn⟩ := h
  obtain ⟨m, hm, hinv⟩ := hr.task s hs
  obtain ⟨c, hc, hnode⟩ := Session.claimed_of_admits hinv hkind hn
  exact ⟨m, c, channel, hm, by rw [hinv.key, hkind]; rfl, hc, hnode⟩

/-- What is left of a claim that was taken under the memory of a number: it lives and names the same
device, or it was forgotten, or another memory has come since. -/
def Since (number : ℕ) (n : EndpointId) (r : Runtime) : Prop :=
  number < r.memories ∨ (r.memories = number ∧ (r.memory = none ∨ r.Claimed n))

/-- A call does not take the claim of a card setup from its holder. -/
lemma lent_claim {memory memory' : SessionMemory} {channel : SignalChannel} {c : ClaimedPeer}
    (hkey : memory.key = .serverCardSetup channel) (hholds : memory.key.Holds memory.claim)
    (hc : memory.claim.peer = some c) (hlent : Lent memory memory') :
    memory'.key = .serverCardSetup channel ∧ memory'.claim.peer = some c := by
  refine ⟨hlent.key.trans hkey, ?_⟩
  rw [hkey] at hholds
  rcases hlent.claim with he | ⟨l, he⟩
  · rw [he, hc]
  · rcases PairClaim.call_peer hc l with he' | ⟨k, n, -, hk, -⟩
    · rw [he, he', hc]
    · -- a key has no part in a card setup
      rw [hholds c hc] at hk
      cases hk

/-- A step keeps what is known since a device took the claim.

**Proof sketch.** By the list of the steps of the loop. A step of the task keeps a claim that is
held, and a session that is started takes a claim of the memory, or a new one that brings a new
memory with it. -/
lemma since_of_step {number : ℕ} {n : EndpointId} (hr : r.Sound C ownId) (hs : Since number n r)
    (h : r.step C ownId l = some (r', out)) : Since number n r' := by
  cases step_cases hr.exclusive h with
  | own l s s' memory memory' os htask hmem hstep =>
    obtain ⟨-, hmem', hmemories, -⟩ := withTask_task r s' memory'
    unfold Since at hs ⊢
    rw [hmemories]
    refine hs.imp_right fun ⟨hnum, hs⟩ => ⟨hnum, Or.inr ?_⟩
    rcases hs with hnone | ⟨m, c, channel, hm, hkey, hc, hn⟩
    · rw [hmem] at hnone
      cases hnone
    · obtain rfl := Option.some.inj (hmem.symm.trans hm)
      obtain ⟨hkey', hc'⟩ := lent_claim hkey (hr.memory memory hmem).1 hc (Session.step_lent hstep)
      exact ⟨memory', c, channel, hmem', hkey', hc', hn⟩
  | starts l kind =>
    unfold Since at hs ⊢
    rcases hs with hlt | ⟨rfl, hs⟩
    · refine Or.inl (Nat.lt_of_lt_of_le hlt ?_)
      simp only [startSession]
      split <;> omega
    · rcases remember_cases r.memory (sessionKey kind) with ⟨hmem, hk⟩ | ⟨hnew, hother⟩
      · -- the memory goes on
        have hany : (r.memory.any fun m => m.key = sessionKey kind) = true := by
          rw [hmem]
          simpa using hk
        refine Or.inr ⟨by simp only [startSession, if_pos hany], Or.inr ?_⟩
        rcases hs with hnone | ⟨m, c, channel, hm, hkey, hc, hn⟩
        · rw [hmem] at hnone
          cases hnone
        · obtain rfl := Option.some.inj (hmem.symm.trans hm)
          exact ⟨_, c, channel, rfl, hkey, hc, hn⟩
      · -- another one has come
        have hany : (r.memory.any fun m => m.key = sessionKey kind) = false := by
          cases hm : r.memory with
          | none => rfl
          | some m => simpa using hother m hm
        refine Or.inl ?_
        simp [startSession, hany]
  | forgets =>
    exact hs.imp_right fun ⟨hnum, _⟩ => ⟨hnum, Or.inl rfl⟩
  | asked => exact hs
  | answered => exact hs
  | cancels => exact hs
  | ends => exact hs

/-- **A claim that was taken stays with its device**, as long as it lives. -/
lemma since_of_run {number : ℕ} {n : EndpointId} (hr : r.Sound C ownId) (hs : Since number n r)
    {labels : List RuntimeLabel} (h : Machine.run (step C ownId) r labels = some (r', out)) :
    r'.Sound C ownId ∧ Since number n r' :=
  Machine.run_invariant (I := fun r _ => r.Sound C ownId ∧ Since number n r)
    (fun _ _ _ _ _ hI hs => ⟨sound_of_step hI.1 hs, since_of_step hI.1 hI.2 hs⟩) ⟨hr, hs⟩ h

/-! ## One card -/

/-- The cards that a task has surfaced. -/
def cards (sid : ℕ) (outs : List RuntimeOut) : ℕ :=
  outs.countP fun
    | .out i o => i = sid && o.IsCard
    | _ => false

/-- The cards in two stretches of a run, one after the other. -/
@[simp] lemma cards_append (sid : ℕ) (outs out : List RuntimeOut) :
    cards sid (outs ++ out) = cards sid outs + cards sid out := List.countP_append

/-- The cards among what a task puts out are its own. -/
lemma cards_own (sid i : ℕ) (os : List Out) :
    cards sid (os.map (.out i)) = if i = sid then os.countP Out.IsCard else 0 := by
  unfold cards
  rw [List.countP_map]
  split_ifs with hi
  · exact List.countP_congr fun o _ => by simp [hi]
  · exact List.countP_eq_zero.2 fun o _ => by simp [hi]

/-- Every task surfaces at most one card, its last act; a task that has not started has surfaced
none. -/
structure CardsOnce (r : Runtime) (outs : List RuntimeOut) : Prop where
  exclusive : r.Exclusive
  once : ∀ sid, cards sid outs ≤ 1
  fresh : ∀ sid, r.sessions ≤ sid → cards sid outs = 0
  task : ∀ s, r.task = some s → s.sid < r.sessions ∧ (s.phase.Over ∨ cards s.sid outs = 0)

/-- Outputs without a card, of a step that starts no task and keeps the one there is at its place.
-/
lemma CardsOnce.quiet (hr : r.CardsOnce outs) (h : r.step C ownId l = some (r', out))
    (hcards : ∀ sid, cards sid out = 0) (hsessions : r'.sessions = r.sessions)
    (htask : ∀ s', r'.task = some s' → ∃ s, r.task = some s ∧ s'.sid = s.sid ∧
      s'.phase = s.phase) : r'.CardsOnce (outs ++ out) where
  exclusive := exclusive_of_step hr.exclusive h
  once sid := by simpa [hcards] using hr.once sid
  fresh sid hle := by simpa [hcards] using hr.fresh sid (hsessions ▸ hle)
  task s' hs' := by
    obtain ⟨s, hs, hsid, hphase⟩ := htask s' hs'
    simpa [hsid, hphase, hcards, hsessions] using hr.task s hs

/-- Every step keeps the count of the cards.

**Proof sketch.** By the list of the steps of the loop, with the count kept for each session number:
a step of a task adds to its own number only, and a session that starts has a number that is new. -/
lemma cardsOnce_of_step (hr : r.CardsOnce outs) (h : r.step C ownId l = some (r', out)) :
    r'.CardsOnce (outs ++ out) := by
  cases step_cases hr.exclusive h with
  | own l s s' memory memory' os htask hmem hstep =>
    obtain ⟨htask', -, -, hsessions⟩ := withTask_task r s' memory'
    obtain ⟨hlt, hover⟩ := hr.task s htask
    have hsid := (Session.step_same hstep).sid
    refine ⟨exclusive_of_step hr.exclusive h, fun sid => ?_, fun sid hle => ?_, fun s₁ hs₁ => ?_⟩
    · rw [cards_append, cards_own]
      have hold := hr.once sid
      split_ifs with he
      · subst he
        rcases Session.card_cases hstep with ⟨hzero, -⟩ | ⟨hone, hnot, -⟩
        · omega
        · -- the task had surfaced none
          have := hover.resolve_left hnot
          omega
      · omega
    · rw [hsessions] at hle
      rw [cards_append, cards_own, hr.fresh sid hle, if_neg (by omega)]
    · obtain rfl : s' = s₁ := Option.some.inj (htask'.symm.trans hs₁)
      refine ⟨by rw [hsessions, hsid]; exact hlt, ?_⟩
      rw [hsid, cards_append, cards_own, if_pos rfl]
      rcases Session.card_cases hstep with ⟨hzero, hkeep⟩ | ⟨-, -, hend⟩
      · exact hover.imp hkeep fun h0 => by omega
      · exact Or.inl hend
  | asked cmd paths s s' hidle hsession hsame hphase =>
    refine hr.quiet h (fun _ => rfl) rfl fun s₁ hs₁ => ?_
    rw [task_of_receiving (by exact hidle)] at hs₁
    obtain rfl : s' = s₁ := Option.some.inj hs₁
    exact ⟨s, by rw [task_of_receiving hidle, hsession], hsame.sid, hphase⟩
  | answered =>
    exact hr.quiet h (fun _ => rfl) rfl fun s hs => ⟨s, hs, rfl, rfl⟩
  | cancels cmd paths s hidle hsession =>
    refine hr.quiet h (fun _ => rfl) rfl fun s₁ hs₁ => ?_
    obtain rfl : ({ s with cancelled := true } : Session) = s₁ := Option.some.inj hs₁
    exact ⟨s, by rw [task_of_receiving hidle, hsession], rfl, rfl⟩
  | starts l kind =>
    have hzero : ∀ sid, cards sid (r.startSession kind).2 = 0 := fun _ => rfl
    refine ⟨exclusive_of_step hr.exclusive h, fun sid => ?_, fun sid hle => ?_, fun s hs => ?_⟩
    · rw [cards_append, hzero]
      exact hr.once sid
    · have hle' : r.sessions + 1 ≤ sid := hle
      rw [cards_append, hzero, hr.fresh sid (by omega)]
    · obtain rfl : Session.start r.sessions kind = s := Option.some.inj hs
      refine ⟨Nat.lt_succ_self _, Or.inr ?_⟩
      rw [cards_append, hzero]
      exact hr.fresh _ (Nat.le_refl _)
  | forgets l hgone =>
    refine hr.quiet h (fun _ => rfl) rfl fun s hs => ?_
    have : r.session = some s := hs
    rw [hgone] at this
    cases this
  | ends loop l hgone hfree =>
    refine hr.quiet h (fun _ => rfl) rfl fun s hs => ?_
    unfold task at hs
    split at hs
    · rename_i s₁ cmd hloop
      exact absurd hloop (hfree s₁ cmd)
    · have : r.session = some s := hs
      rw [hgone] at this
      cases this

/-- **No task surfaces two cards**, in any run. -/
lemma cardsOnce {labels : List RuntimeLabel} (h : Ran C ownId labels r outs) : r.CardsOnce outs :=
  Machine.run_invariant (I := CardsOnce) (fun _ _ _ _ _ hI hs => cardsOnce_of_step hI hs)
    ⟨fun _ _ h => (by cases h), fun _ => Nat.zero_le _, fun _ _ => rfl, fun _ h => (by cases h)⟩ h

/-- **One card setup, one device.** In every run of the command loop, whatever dialers do in
whatever order, no task surfaces more than one card. A card-setup host accepts a PIN of, or trades
cards with, only a device that has taken the claim; and from then on, for as long as the claim
lives, whatever tasks it is lent to, it does so with no other device, and closes every other device
that arrives as busy, without a change of its own.

**Proof sketch.** The count of the cards is an invariant of the loop, and so is who holds the claim.
What the holder keeps out is the step lemma about an incoming connection, after any further run of
the same memory. -/
theorem card_setup_admits_one {labels labels' : List RuntimeLabel} {outs' : List RuntimeOut}
    (h : Ran C ownId labels r outs)
    (h' : Machine.run (step C ownId) r labels' = some (r', outs')) :
    (∀ sid, cards sid outs ≤ 1) ∧ (∀ n, r.Admits n → r.Claimed n) ∧
    ∀ n, r.Claimed n → r'.memories = r.memories →
      (∀ n', r'.Admits n' → n' = n) ∧
      ∀ s conn r'' out, r'.task = some s → conn.remoteId ≠ n →
        r'.step C ownId (.own (.incoming conn)) = some (r'', out) →
          out = [.out s.sid (.close conn SERVER_BUSY_CODE)] ∧ r''.task = some s ∧
            r''.memory = r'.memory := by
  have hr := sound h
  refine ⟨(cardsOnce h).once, fun n hn => claimed_of_admits hr hn, fun n hn hsame => ?_⟩
  obtain ⟨hr', hsince⟩ := since_of_run hr (Or.inr ⟨rfl, Or.inr hn⟩) h'
  -- the claim of the later state, if there still is one
  have hclaimed : r'.memory ≠ none → r'.Claimed n := fun hsome => by
    rcases hsince with hlt | ⟨-, hnone | hc⟩
    · omega
    · exact absurd hnone hsome
    · exact hc
  constructor
  · intro n' hn'
    have hc' := claimed_of_admits hr' hn'
    refine hc'.unique (hclaimed ?_)
    obtain ⟨m, -, -, hm, -⟩ := hc'
    rw [hm]
    simp
  · intro s conn r'' out hs hne hstep
    obtain ⟨m, hm, hinv⟩ := hr'.task s hs
    obtain ⟨m', c, channel, hm', hkey, hc, hnode⟩ := hclaimed (by rw [hm]; simp)
    obtain rfl := Option.some.inj (hm.symm.trans hm')
    -- the task that runs on the claim is a card-setup host
    obtain ⟨card, relays, hkind⟩ := kind_of_key (hinv.key.symm.trans hkey)
    obtain ⟨s₁, s', memory, memory', os, htask, hmem, hsess, rfl, rfl⟩ := own_cases hstep
    obtain rfl := Option.some.inj (htask.symm.trans hs)
    obtain rfl := Option.some.inj (hmem.symm.trans hm)
    obtain ⟨rfl, rfl, rfl⟩ := Session.incoming_refused hkind hc
      (by rw [hnode]; exact fun he => hne (Option.some.inj he).symm) hsess
    obtain ⟨htask', hmem', -⟩ := withTask_task r' s' memory'
    exact ⟨rfl, htask', by rw [hmem', hmem]⟩

section Sample

open Sample

/-- A device shows a PIN, and another one proves that it knows it. -/
def joined : List RuntimeLabel :=
  [.command (.startServer (.cardSetup setupCard .lanOnly [])) [], .own (.begin 0),
    .own (.bound (.ok ())), .own (.publish (.pins (.mint pin none))),
    .own (.publish (.pins (.derived true true true true true))), .own (.incoming ⟨0, joinerId⟩)] ++
  (joins ++ proves).map fun l => .own (.auth l none)

/-- Whether the claim of a card setup on the local network is taken by a device. -/
def claimedBy (r : Runtime) (n : EndpointId) : Bool :=
  r.memory.any fun m => m.key = .serverCardSetup .lanOnly &&
    m.claim.peer.any fun c => c.nodeId = some n

/-- A claim that is found to be held by a device is held by it. -/
lemma claimed_of_claimedBy {n : EndpointId} (h : r.claimedBy n = true) : r.Claimed n := by
  obtain ⟨m, hm, hr⟩ := (Option.any_eq_true _ _).1 h
  obtain ⟨hkey, hpeer⟩ := Bool.and_eq_true_iff.1 hr
  obtain ⟨c, hc, hnode⟩ := (Option.any_eq_true _ _).1 hpeer
  exact ⟨m, c, .lanOnly, hm, of_decide_eq_true hkey, hc, of_decide_eq_true hnode⟩

/-- The device that proved the PIN has taken the claim, and the host gives itself to nobody else. -/
theorem card_setup_admits_one_sample : ∃ r outs, Ran plain hostId joined r outs ∧
    r.Claimed joinerId ∧ ∀ n, r.Admits n → n = joinerId := by
  have hrun : ((Machine.run (step plain hostId) init joined).any
      fun res => res.1.claimedBy joinerId) = true := by decide +kernel
  obtain ⟨⟨r, outs⟩, hran, hclaimed⟩ := (Option.any_eq_true _ _).1 hrun
  have hn := claimed_of_claimedBy hclaimed
  exact ⟨r, outs, hran, hn, ((card_setup_admits_one hran (Machine.run_nil r)).2.2 _ hn rfl).1⟩

end Sample

end Runtime

end Duocb
