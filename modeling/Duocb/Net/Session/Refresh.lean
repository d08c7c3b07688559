import Duocb.Net.Session.Invariant

set_option relaxedAutoImplicit false
set_option autoImplicit false

/-!
# Asking for a new PIN

The publisher of a card-setup host shows one PIN after the other; the handshakes of the host read
the passwords it has left them. A request for a new PIN drops every password that was left so far.
What a handshake has read before that it keeps, and it may still accept it afterwards.

PINs are counted in rounds: a round ends when a request for a new PIN has been processed.

## Main definitions

* `Duocb.CardHost`, `Duocb.CardHost.step` — a publisher beside any number of handshakes.
* `Duocb.CardHost.Round` — a password that stands for a PIN shown in a round.

## Main results

* `Duocb.CardHost.Inv.step` — a handshake knows the PINs of one round only.
* `Duocb.CardHost.refresh_revokes` — a handshake that is about to claim the pairing rests on a PIN
  of the round in which it took its snapshot, and of the last round unless a request for a new PIN
  was processed while it was under way.
* `Duocb.CardHost.of_session` — a session of a card-setup host is such a publisher beside at most
  one handshake.
-/

namespace Duocb

/-- A handshake of a host, and for the record how many requests for a new PIN had been processed
when it took its snapshot of the passwords. -/
structure HostHandshake where
  auth : Auth
  since : Option ℕ

/-- What is recorded of the snapshot of a handshake that has moved. -/
def HostHandshake.taking (a : HostHandshake) (refreshes : ℕ) : Option ℕ :=
  match a.auth.prog with
  | .call .candidates _ => some refreshes
  | _ => a.since

/-- A card-setup host: its publisher, the memory it was lent, a pending request for a new PIN, its
cancel token and the handshakes under way. For the record: how many requests were processed, and the
PINs that were shown, each with that number at its time. -/
structure CardHost where
  publisher : PinPublisher
  memory : SessionMemory
  refresh : Bool
  cancelled : Bool
  handshakes : List HostHandshake
  refreshes : ℕ
  shown : List (ℕ × String)

/-- What moves a card-setup host. The publisher and any number of handshakes run side by side. -/
inductive CardHostLabel where
  /-- Its publisher takes a step. -/
  | publish (l : PinLabel)
  /-- The user asks for a new PIN. -/
  | ask
  /-- The session is cancelled. -/
  | cancel
  /-- A connection that may be served begins its handshake. -/
  | begin (remoteId : EndpointId)
  /-- A handshake goes on. -/
  | auth (i : ℕ) (l : AuthLabel)
  /-- A handshake is given up. -/
  | drop (i : ℕ)

namespace CardHost

/-- The PINs that were shown after the publisher has moved. -/
def showing (h : CardHost) : PinLabel → PinPublisher → List (ℕ × String)
  | .mint _ _, .derivingKeys pin => h.shown ++ [(h.refreshes, pin)]
  | _, _ => h.shown

/-- The requests that were processed after the publisher has moved. -/
def processed (h : CardHost) : PinLabel → ℕ
  | .refresh => h.refreshes + 1
  | _ => h.refreshes

/-- The host after its publisher has moved. The count of the rounds goes up when it takes a request
for a new PIN, and a PIN is recorded with its round. -/
def published (h : CardHost) (l : PinLabel) (p : PinPublisher) (sh : PinShared) : CardHost :=
  { h with
    publisher := p
    memory := { h.memory with recentPins := sh.recentPins }
    refresh := sh.refresh
    refreshes := h.processed l
    shown := h.showing l p }

/-- What a card-setup host answers its handshakes from. -/
def policy (h : CardHost) (remoteId : EndpointId) : Policy :=
  ⟨none, true, remoteId, h.memory.claim.peer⟩

variable (C : Crypto) (ownId : EndpointId) (channel : SignalChannel)

/-- One step of a card-setup host. A handshake takes its answers from the memory as it stands at
that step. -/
def step (h : CardHost) : CardHostLabel → Option CardHost
  | .publish l =>
    (h.publisher.step C channel
      ⟨h.memory.claim.paired, h.memory.recentPins, h.refresh, h.cancelled⟩ l).map
      fun (p, sh, _) => h.published l p sh
  | .ask => some { h with refresh := true }
  | .cancel => some { h with cancelled := true }
  | .begin remoteId =>
    if h.memory.claim.serveable remoteId false then
      some { h with
        handshakes := h.handshakes ++
          [⟨⟨h.policy remoteId, [], authAsListener C none remoteId ownId⟩, none⟩] }
    else none
  | .auth i l =>
    h.handshakes[i]?.bind fun a => (a.auth.step h.memory l).map fun (auth', memory') =>
      { h with
        memory := memory'
        handshakes := h.handshakes.set i ⟨auth', a.taking h.refreshes⟩ }
  | .drop i => some { h with handshakes := h.handshakes.eraseIdx i }

/-- A password stands for a PIN that was shown in a round. -/
def Round (shown : List (ℕ × String)) (n : ℕ) (pw : PinPassword) : Prop :=
  ∃ pin, (n, pin) ∈ shown ∧ C.deriveAuthKeyMaterial pin = .ok pw

/-- A publisher that begins its first turn, in a session that may have shown PINs before. -/
structure Starts (h : CardHost) : Prop where
  publisher : h.publisher = .minting
  handshakes : h.handshakes = []
  refreshes : h.refreshes = 0
  recent : ∀ pw ∈ h.memory.recentPins, Round C h.shown 0 pw

/-! ## What holds of a host -/

/-- What holds of a handshake: it follows its program, and the passwords it took stand for PINs of
one round. -/
structure HandshakeInv (refreshes : ℕ) (shown : List (ℕ × String)) (a : HostHandshake) : Prop where
  follows : Prog.Follows (authAsListener C none a.auth.policy.remoteId ownId) a.auth.hist
    a.auth.prog
  taken : ∀ passwords : List PinPassword, ⟨.candidates, passwords⟩ ∈ a.auth.hist →
    ∃ n ≤ refreshes, a.since = some n ∧ ∀ pw ∈ passwords, Round C shown n pw

/-- What holds of a host: the passwords it has left stand for PINs of the last round. -/
structure Inv (h : CardHost) : Prop where
  recent : ∀ pw ∈ h.memory.recentPins, Round C h.shown h.refreshes pw
  deriving_ : ∀ pin, h.publisher = .derivingKeys pin → (h.refreshes, pin) ∈ h.shown
  handshakes : ∀ a ∈ h.handshakes, HandshakeInv C ownId h.refreshes h.shown a

variable {C ownId channel} {h h' : CardHost} {l : CardHostLabel}

/-- A host that has just begun keeps the invariant. -/
lemma Starts.inv (hs : h.Starts C) : h.Inv C ownId where
  recent := by rw [hs.refreshes]; exact hs.recent
  deriving_ pin hp := by rw [hs.publisher] at hp; cases hp
  handshakes := by simp [hs.handshakes]

/-- A round stays what it is as more PINs are shown. -/
lemma Round.mono {shown shown' : List (ℕ × String)} {n : ℕ} {pw : PinPassword}
    (hr : Round C shown n pw) (hsub : ∀ e ∈ shown, e ∈ shown') : Round C shown' n pw := by
  obtain ⟨pin, hmem, hpw⟩ := hr
  exact ⟨pin, hsub _ hmem, hpw⟩

/-- More PINs and later rounds change nothing for a handshake. -/
lemma HandshakeInv.mono {refreshes refreshes' : ℕ} {shown shown' : List (ℕ × String)}
    {a : HostHandshake} (ha : HandshakeInv C ownId refreshes shown a)
    (hle : refreshes ≤ refreshes') (hsub : ∀ e ∈ shown, e ∈ shown') :
    HandshakeInv C ownId refreshes' shown' a where
  follows := ha.follows
  taken passwords hmem := by
    obtain ⟨n, hn, hsince, hround⟩ := ha.taken passwords hmem
    exact ⟨n, Nat.le_trans hn hle, hsince, fun pw hpw => (hround pw hpw).mono hsub⟩

/-- What a step of the publisher leaves: the passwords and the PINs after it.

**Proof sketch.** By the label, the state of the publisher and the outcome of the derivation. -/
lemma publish_cases {p' : PinPublisher} {sh sh' : PinShared} {es : List NetEvent} {l : PinLabel}
    (hstep : h.publisher.step C channel sh l = some (p', sh', es)) :
    (h.processed l = h.refreshes + 1 ∧ p' = .minting ∧ sh'.recentPins = [] ∧
      h.showing l p' = h.shown) ∨
    (h.processed l = h.refreshes ∧ ((sh'.recentPins = sh.recentPins ∧
        ((∃ pin, p' = .derivingKeys pin ∧ h.showing l p' = h.shown ++ [(h.refreshes, pin)]) ∨
          (∀ pin, p' ≠ .derivingKeys pin) ∧ h.showing l p' = h.shown)) ∨
      ∃ pin pw, h.publisher = .derivingKeys pin ∧ C.deriveAuthKeyMaterial pin = .ok pw ∧
        sh'.recentPins = sh.recentPins.push pw ∧ (∀ pin, p' ≠ .derivingKeys pin) ∧
        h.showing l p' = h.shown)) := by
  cases l with
  | mint pin ip =>
    simp only [PinPublisher.step] at hstep
    split at hstep
    · split at hstep
      · obtain ⟨rfl, rfl, rfl⟩ := by simpa using hstep
        exact Or.inr ⟨rfl, Or.inl ⟨rfl, Or.inr ⟨by simp, rfl⟩⟩⟩
      · obtain ⟨rfl, rfl, -⟩ := by simpa using hstep
        exact Or.inr ⟨rfl, Or.inl ⟨rfl, Or.inl ⟨pin, rfl, rfl⟩⟩⟩
    · cases hstep
  | derived ran record dnssd unicast nostr =>
    simp only [PinPublisher.step] at hstep
    split at hstep
    · rename_i pin hp
      split_ifs at hstep
      all_goals obtain ⟨rfl, rfl, rfl⟩ := by simpa using hstep
      · cases hd : C.deriveAuthKeyMaterial pin with
        | error e => exact Or.inr ⟨rfl, Or.inl ⟨rfl, Or.inr ⟨by simp, rfl⟩⟩⟩
        | ok pw => exact Or.inr ⟨rfl, Or.inr ⟨pin, pw, hp, hd, rfl, by simp, rfl⟩⟩
      · cases hd : C.deriveAuthKeyMaterial pin with
        | error e => exact Or.inr ⟨rfl, Or.inl ⟨rfl, Or.inr ⟨by simp, rfl⟩⟩⟩
        | ok pw => exact Or.inr ⟨rfl, Or.inr ⟨pin, pw, hp, hd, rfl, by simp, rfl⟩⟩
      · exact Or.inr ⟨rfl, Or.inl ⟨rfl, Or.inr ⟨by simp, rfl⟩⟩⟩
    · cases hstep
  | refresh =>
    simp only [PinPublisher.step] at hstep
    split_ifs at hstep
    obtain ⟨rfl, rfl, rfl⟩ := by simpa using hstep
    exact Or.inl ⟨rfl, rfl, rfl, rfl⟩
  | rotate | paired | cancelled =>
    simp only [PinPublisher.step] at hstep
    split_ifs at hstep
    obtain ⟨rfl, rfl, rfl⟩ := by simpa using hstep
    exact Or.inr ⟨rfl, Or.inl ⟨rfl, Or.inr ⟨by simp, rfl⟩⟩⟩

/-- A password that is pushed is the new one or an old one. -/
lemma mem_push {pins : RecentPins} {pw pw' : PinPassword} (h : pw' ∈ pins.push pw) :
    pw' = pw ∨ pw' ∈ pins :=
  List.mem_cons.1 (List.mem_of_mem_take h)

/-- The publisher keeps the invariant.

**Proof sketch.** A refresh forgets the passwords and opens a new round. A derivation adds a
password of a PIN that is shown in this round. The other steps change nothing of the passwords. -/
lemma Inv.publish (hI : h.Inv C ownId) {l : PinLabel}
    (hstep : h.step C ownId channel (.publish l) = some h') : h'.Inv C ownId := by
  obtain ⟨⟨p', sh', es⟩, hpub, he⟩ := Option.map_eq_some_iff.1 hstep
  obtain rfl : h.published l p' sh' = h' := he
  -- what is to be shown of the passwords, the publisher and the handshakes
  suffices hkeep : h.refreshes ≤ h.processed l ∧ (∀ e ∈ h.shown, e ∈ h.showing l p') ∧
      (∀ pw ∈ sh'.recentPins, Round C (h.showing l p') (h.processed l) pw) ∧
      ∀ pin, p' = .derivingKeys pin → (h.processed l, pin) ∈ h.showing l p' from
    ⟨hkeep.2.2.1, hkeep.2.2.2, fun a ha => (hI.handshakes a ha).mono hkeep.1 hkeep.2.1⟩
  rcases publish_cases hpub with ⟨hn, rfl, hrecent, hshown⟩ | ⟨hn, ⟨hrecent, hp⟩ |
    ⟨pin, pw, hp, hd, hrecent, hno, hshown⟩⟩
  · rw [hn, hshown, hrecent]
    exact ⟨by omega, fun _ => id, by simp, fun pin hpin => by cases hpin⟩
  · have hsub : ∀ e ∈ h.shown, e ∈ h.showing l p' := by
      rcases hp with ⟨pin, -, he⟩ | ⟨-, he⟩
      · rw [he]
        exact fun e => List.mem_append_left _
      · rw [he]
        exact fun _ => id
    rw [hn, hrecent]
    refine ⟨Nat.le_refl _, hsub, fun pw hpw => (hI.recent pw hpw).mono hsub, fun pin hpin => ?_⟩
    rcases hp with ⟨pin', rfl, he⟩ | ⟨hno, -⟩
    · cases hpin
      rw [he]
      exact List.mem_concat_self
    · exact absurd hpin (hno pin)
  · rw [hn, hshown, hrecent]
    refine ⟨Nat.le_refl _, fun _ => id, fun pw' hpw => ?_, fun pin' hpin => absurd hpin (hno pin')⟩
    rcases mem_push hpw with rfl | hold
    · exact ⟨pin, hI.deriving_ pin hp, hd⟩
    · exact hI.recent pw' hold

/-- **A handshake knows the PINs of one round only.**

**Proof sketch.** The step is inverted. Only the snapshot of the passwords changes what the
handshake knows, and at that step all of them are of the current round. -/
lemma HandshakeInv.step {a : HostHandshake} {auth' : Auth} {memory memory' : SessionMemory}
    {refreshes : ℕ} {shown : List (ℕ × String)} {l : AuthLabel}
    (ha : HandshakeInv C ownId refreshes shown a)
    (hrecent : ∀ pw ∈ memory.recentPins, Round C shown refreshes pw)
    (hstep : a.auth.step memory l = some (auth', memory')) :
    HandshakeInv C ownId refreshes shown ⟨auth', a.taking refreshes⟩ := by
  obtain ⟨o, k, ans, hprog, rfl, hans⟩ := Auth.step_cases hstep
  have hfollows := ha.follows
  rw [hprog] at hfollows
  have hdue := ((Auth.authAsListener_safe (C := C) none a.auth.policy.remoteId ownId).sound
    hfollows fun _ _ => trivial).2.1
  refine ⟨hfollows.snoc ans, fun passwords hmem => ?_⟩
  rcases List.mem_append.1 hmem with hold | hnew
  · -- the snapshot was taken before, so it is not what comes next
    obtain ⟨n, hn, hsince, hround⟩ := ha.taken passwords hold
    refine ⟨n, hn, ?_, hround⟩
    have hne : o ≠ .candidates := fun he => by
      subst he
      exact hdue ⟨.candidates, passwords⟩ hold rfl
    cases o with
    | candidates => exact absurd rfl hne
    | _ => simp only [HostHandshake.taking, hprog, hsince]
  · obtain ⟨rfl, hans'⟩ := Sigma.mk.inj (List.mem_singleton.1 hnew)
    obtain rfl := eq_of_heq hans'
    refine ⟨refreshes, Nat.le_refl _, by simp only [HostHandshake.taking, hprog], ?_⟩
    obtain ⟨hnone, -⟩ | ⟨now, claim, hsome, -⟩ := hans
    · cases hnone
    · obtain ⟨hpass, -⟩ := Prod.mk.inj (Option.some.inj hsome)
      intro pw hpw
      rw [← hpass] at hpw
      simp only [Policy.snapshot] at hpw
      split_ifs at hpw
      · cases hpw
      · exact hrecent pw hpw
      · cases hpw

/-- **Every step keeps the invariant.**

**Proof sketch.** By the label. A step of the publisher and a step of a handshake have lemmas of
their own, and the rest only adds or removes a handshake. -/
theorem Inv.step (hI : h.Inv C ownId) (hstep : h.step C ownId channel l = some h') :
    h'.Inv C ownId := by
  cases l with
  | publish l => exact hI.publish hstep
  | ask =>
    obtain rfl := Option.some.inj hstep
    exact ⟨hI.recent, hI.deriving_, hI.handshakes⟩
  | cancel =>
    obtain rfl := Option.some.inj hstep
    exact ⟨hI.recent, hI.deriving_, hI.handshakes⟩
  | begin remoteId =>
    simp only [CardHost.step] at hstep
    split_ifs at hstep
    obtain rfl := Option.some.inj hstep
    refine ⟨hI.recent, hI.deriving_, fun a ha => ?_⟩
    rcases List.mem_append.1 ha with ha | ha
    · exact hI.handshakes a ha
    · obtain rfl := List.mem_singleton.1 ha
      exact ⟨.nil _, by simp⟩
  | auth i l =>
    obtain ⟨a, ha, hrest⟩ := Option.bind_eq_some_iff.1 hstep
    obtain ⟨⟨auth', memory'⟩, hauth, rfl⟩ := Option.map_eq_some_iff.1 hrest
    have hpins : memory'.recentPins = h.memory.recentPins := by
      obtain ⟨-, -, -, -, -, ⟨-, rfl⟩ | ⟨-, -, -, rfl⟩⟩ := Auth.step_cases hauth <;> rfl
    refine ⟨?_, hI.deriving_, fun b hb => ?_⟩
    · rw [show CardHost.memory _ = memory' from rfl, hpins]
      exact hI.recent
    · rcases List.mem_or_eq_of_mem_set hb with hb | rfl
      · exact hI.handshakes b hb
      · exact (hI.handshakes a (List.mem_of_getElem? ha)).step hI.recent hauth
  | drop i =>
    obtain rfl := Option.some.inj hstep
    exact ⟨hI.recent, hI.deriving_, fun a ha => hI.handshakes a (List.mem_of_mem_eraseIdx ha)⟩

/-! ## What a claim rests on -/

/-- A handshake is about to claim the pairing on the strength of a password: a slot verified that
runs it. -/
def RestsOn (C : Crypto) (ownId : EndpointId) (a : HostHandshake) (pw : PinPassword) : Prop :=
  (∃ k, a.auth.prog = .call .commitPin k) ∧ ∃ (passwords : List PinPassword) (slot : ℕ),
    ⟨.candidates, passwords⟩ ∈ a.auth.hist ∧ passwords[slot]? = some pw ∧
      PinAuth.Verified C passwords a.auth.policy.remoteId.toString ownId.toString a.auth.hist slot

/-- No handshake that has its snapshot is under way when a request for a new PIN is processed. -/
def Unraced (h : CardHost) (l : CardHostLabel) : Prop :=
  l = .publish .refresh → ∀ a ∈ h.handshakes, ¬ a.auth.prog.Ended →
    ∀ e ∈ a.auth.hist, e.1 ≠ .candidates

/-- Every handshake under way that has its snapshot took it in the last round. -/
def Current (h : CardHost) : Prop :=
  ∀ a ∈ h.handshakes, ¬ a.auth.prog.Ended → ∀ passwords : List PinPassword,
    ⟨.candidates, passwords⟩ ∈ a.auth.hist → a.since = some h.refreshes

/-- A step that does not race keeps every snapshot current.

**Proof sketch.** A refresh is ruled out by the condition while a handshake has a snapshot. Every
other step keeps the round, and a snapshot that is taken is one of the current round. -/
lemma Current.step (hcur : h.Current) (hun : Unraced h l)
    (hstep : h.step C ownId channel l = some h') : h'.Current := by
  cases l with
  | publish l =>
    obtain ⟨⟨p', sh', es⟩, hpub, he⟩ := Option.map_eq_some_iff.1 hstep
    obtain rfl : h.published l p' sh' = h' := he
    intro a ha hend passwords hmem
    cases l with
    | refresh => exact absurd rfl (hun rfl a ha hend _ hmem)
    | _ => exact hcur a ha hend passwords hmem
  | ask | cancel =>
    obtain rfl := Option.some.inj hstep
    exact hcur
  | begin remoteId =>
    simp only [CardHost.step] at hstep
    split_ifs at hstep
    obtain rfl := Option.some.inj hstep
    intro a ha hend passwords hmem
    rcases List.mem_append.1 ha with ha | ha
    · exact hcur a ha hend passwords hmem
    · obtain rfl := List.mem_singleton.1 ha
      cases hmem
  | auth i l =>
    obtain ⟨a, ha, hrest⟩ := Option.bind_eq_some_iff.1 hstep
    obtain ⟨⟨auth', memory'⟩, hauth, rfl⟩ := Option.map_eq_some_iff.1 hrest
    intro b hb hend passwords hmem
    rcases List.mem_or_eq_of_mem_set hb with hb | rfl
    · exact hcur b hb hend passwords hmem
    obtain ⟨o, k, ans, hprog, rfl, -⟩ := Auth.step_cases hauth
    have hmem_a := List.mem_of_getElem? ha
    show a.taking h.refreshes = some h.refreshes
    cases o with
    | candidates => simp only [HostHandshake.taking, hprog]
    | _ =>
      rcases List.mem_append.1 hmem with hold | hnew
      · have hsince := hcur a hmem_a (by rw [hprog]; exact id) passwords hold
        simp only [HostHandshake.taking, hprog, hsince]
      · cases (Sigma.mk.inj (List.mem_singleton.1 hnew)).1
  | drop i =>
    obtain rfl := Option.some.inj hstep
    exact fun a ha => hcur a (List.mem_of_mem_eraseIdx ha)

/-- A handshake that is about to claim the pairing rests on PINs of the round in which it took its
snapshot.

**Proof sketch.** The program asks for the claim only where a slot has verified. The passwords of
that slot are those of its snapshot, which is of one round. -/
lemma Inv.round_of_commit (hI : h.Inv C ownId) {a : HostHandshake} (ha : a ∈ h.handshakes)
    {k : Bool → Handshake (Option PublicKey)} (hprog : a.auth.prog = .call .commitPin k) :
    ∃ n ≤ h.refreshes, a.since = some n ∧ (∃ pw, RestsOn C ownId a pw) ∧
      ∀ pw, RestsOn C ownId a pw → Round C h.shown n pw := by
  have hinv := hI.handshakes a ha
  have hfollows := hinv.follows
  rw [hprog] at hfollows
  obtain ⟨passwords, hcand, slot, hv⟩ := ((Auth.authAsListener_safe (C := C) none
    a.auth.policy.remoteId ownId).sound hfollows fun _ _ => trivial).2.1
  obtain ⟨n, hn, hsince, -⟩ := hinv.taken passwords hcand
  refine ⟨n, hn, hsince, ?_, fun pw hrests => ?_⟩
  · obtain ⟨-, pw, -, -, -, -, -, -, -, -, -, hget, -⟩ := id hv
    exact ⟨pw, ⟨k, hprog⟩, passwords, slot, hcand, hget, hv⟩
  · obtain ⟨-, passwords', slot', hcand', hget', -⟩ := hrests
    obtain ⟨n', -, hsince', hround⟩ := hinv.taken passwords' hcand'
    obtain rfl := Option.some.inj (hsince.symm.trans hsince')
    exact hround pw (List.mem_of_getElem? hget')

/-- Every host that a run leads to is as it should be. -/
lemma inv_of_run {h₀ : CardHost} {labels : List CardHostLabel} (hstart : h₀.Starts C)
    (hrun : Machine.exec (step C ownId channel) h₀ labels = some h) : h.Inv C ownId :=
  Machine.reachable_invariant (I := Inv C ownId) hstart.inv (fun _ _ _ hI hs => hI.step hs)
    ⟨labels, hrun⟩

/-- **What a request for a new PIN revokes.** In every run of a publisher beside any number of
handshakes, a handshake that is about to claim the pairing rests on PINs of one round, the one in
which it took its snapshot. In a run in which no request for a new PIN is processed while a
handshake that has its snapshot is under way, that is the last round, so no claim rests on a PIN
that was shown before a request that has been processed.

**Proof sketch.** The invariant says of which round the passwords of a handshake are. In a run that
does not race no round begins after the snapshot, so that it is the current one. -/
theorem refresh_revokes {h₀ : CardHost} {labels : List CardHostLabel} (hstart : h₀.Starts C)
    (hrun : Machine.exec (step C ownId channel) h₀ labels = some h) :
    (∀ a ∈ h.handshakes, (∃ k, a.auth.prog = .call .commitPin k) →
      ∃ n ≤ h.refreshes, a.since = some n ∧ (∃ pw, RestsOn C ownId a pw) ∧
        ∀ pw, RestsOn C ownId a pw → Round C h.shown n pw) ∧
    (Machine.Meets (step C ownId channel) Unraced h₀ labels →
      ∀ a ∈ h.handshakes, ∀ pw, RestsOn C ownId a pw → Round C h.shown h.refreshes pw) := by
  have hI := inv_of_run hstart hrun
  constructor
  · rintro a ha ⟨k, hprog⟩
    exact hI.round_of_commit ha hprog
  · intro hmeets a ha pw hrests
    have hcur : h.Inv C ownId ∧ h.Current := by
      refine Machine.exec_invariant (I := fun h => h.Inv C ownId ∧ h.Current)
        (fun _ _ _ hI hC hs => ⟨hI.1.step hs, hI.2.step hC hs⟩) ⟨hstart.inv, ?_⟩ hmeets hrun
      intro a ha
      rw [hstart.handshakes] at ha
      cases ha
    obtain ⟨⟨k, hprog⟩, passwords, slot, hcand, hget, -⟩ := hrests
    obtain ⟨n, -, hsince, hround⟩ := (hI.handshakes a ha).taken passwords hcand
    have hlast := hcur.2 a ha (by rw [hprog]; exact id) passwords hcand
    obtain rfl := Option.some.inj (hsince.symm.trans hlast)
    exact hround pw (List.mem_of_getElem? hget)

/-! ## The host of a session -/

/-- The handshake that a task is at. -/
def auths : Phase → List Auth
  | .authenticating _ auth => [auth]
  | _ => []

/-- A task whose endpoint has been created. -/
def Started : Phase → Prop
  | .spawned | .starting => False
  | _ => True

/-- A card-setup host stands for a session task and its memory: it has the same publisher, and the
handshake that the task is at. -/
structure Matches (h : CardHost) (s : Session) (memory : SessionMemory) : Prop where
  publisher : s.publisher = .pins h.publisher
  memory : memory = h.memory
  refresh : s.refresh = h.refresh
  cancelled : s.cancelled = h.cancelled
  started : Started s.phase
  handshakes : h.handshakes.map HostHandshake.auth = auths s.phase

variable {s s' : Session} {memory memory' : SessionMemory} {outs : List Out}

/-- A task that waits elsewhere, with the handshake it had or without one. -/
lemma Matches.at' (hm : h.Matches s memory) {phase : Phase} (hstarted : Started phase)
    (hauths : h.handshakes.map HostHandshake.auth = auths phase) : h.Matches (s.at' phase) memory :=
  ⟨hm.publisher, hm.memory, hm.refresh, hm.cancelled, hstarted, hauths⟩

variable (C ownId channel) in
/-- A handshake that has ended, or is given up, is dropped. -/
lemma Matches.dropped (hm : h.Matches s memory) {conn : Conn} {auth : Auth}
    (hphase : s.phase = .authenticating conn auth) {phase : Phase} (hstarted : Started phase)
    (hauths : auths phase = []) :
    ∃ h', h.step C ownId channel (.drop 0) = some h' ∧ h'.Matches (s.at' phase) memory := by
  have hone := hm.handshakes
  rw [hphase] at hone
  obtain ⟨a, ha, -⟩ := List.map_eq_singleton_iff.1 hone
  exact ⟨{ h with handshakes := [] }, by simp [CardHost.step, ha],
    ⟨hm.publisher, hm.memory, hm.refresh, hm.cancelled, hstarted, hauths.symm⟩⟩

variable (C ownId channel) in
/-- A step of the handshake that a task is at is a step of the host. -/
lemma Matches.auth (hm : h.Matches s memory) {conn : Conn} {auth auth' : Auth} {l : AuthLabel}
    (hphase : s.phase = .authenticating conn auth)
    (hstep : auth.step memory l = some (auth', memory')) :
    ∃ h', h.step C ownId channel (.auth 0 l) = some h' ∧
      h'.Matches (s.at' (.authenticating conn auth')) memory' := by
  have hone := hm.handshakes
  rw [hphase] at hone
  obtain ⟨a, ha, rfl⟩ := List.map_eq_singleton_iff.1 hone
  rw [hm.memory] at hstep
  exact ⟨{ h with memory := memory', handshakes := [⟨auth', a.taking h.refreshes⟩] },
    by simp [CardHost.step, ha, hstep],
    ⟨hm.publisher, rfl, hm.refresh, hm.cancelled, trivial, rfl⟩⟩

/-- Where a joiner's failed attempt leaves the task. -/
lemma hostFailed_at' (s : Session) (memory : SessionMemory) (conn : Conn) (e : Error) :
    ∃ phase, (hostFailed s memory conn e).1 = s.at' phase ∧ Started phase ∧ auths phase = [] := by
  unfold hostFailed
  split
  · exact ⟨.closing, rfl, trivial, rfl⟩
  · exact ⟨.accepting, rfl, trivial, rfl⟩

variable (ownId) in
/-- A publisher that moves is the publisher of the host. -/
lemma Matches.published (hm : h.Matches s memory) {p : PinPublisher} {l : PinLabel}
    {r : PinPublisher × PinShared × List NetEvent} (hp : s.publisher = .pins p)
    (hstep : p.step C channel ⟨memory.claim.paired, memory.recentPins, s.refresh, s.cancelled⟩ l =
      some r) :
    ∃ h', h.step C ownId channel (.publish l) = some h' ∧
      h'.Matches { s with publisher := .pins r.1, refresh := r.2.1.refresh }
        { memory with recentPins := r.2.1.recentPins } := by
  obtain rfl : p = h.publisher := Publisher.pins.inj (hp.symm.trans hm.publisher)
  rw [hm.memory, hm.refresh, hm.cancelled] at hstep
  refine ⟨h.published l r.1 r.2.1, by simp [CardHost.step, hstep], rfl, ?_, rfl, hm.cancelled,
    hm.started, hm.handshakes⟩
  rw [hm.memory]
  rfl

/-- **A session of a card-setup host is such a host.** Whatever step its task takes once its
endpoint is there, the host takes it too, until the task returns and its publisher goes with it.

**Proof sketch.** By the state of the task, and for each by its label: the task's step is one step
of the host, or two of them, or none. -/
theorem of_session {card : IdentityCard} {relays : List String} {l : SessionLabel}
    (hm : h.Matches s memory)
    (hkind : s.kind = .server (.cardSetup card channel relays))
    (hstep : s.step C ownId memory l = some (s', memory', outs)) :
    s'.phase = .ended ∨ ∃ labels h', Machine.exec (step C ownId channel) h labels = some h' ∧
      h'.Matches s' memory' := by
  -- one step of the host, two steps of it, or none
  have one : ∀ {l h'}, h.step C ownId channel l = some h' → h'.Matches s' memory' →
      s'.phase = .ended ∨ ∃ labels h', Machine.exec (step C ownId channel) h labels = some h' ∧
        h'.Matches s' memory' := fun {l h'} hs hm' =>
    Or.inr ⟨[l], h', Machine.exec_cons_eq_some.2 ⟨h', hs, rfl⟩, hm'⟩
  have two : ∀ {l₁ l₂ h₁ h₂}, h.step C ownId channel l₁ = some h₁ →
      h₁.step C ownId channel l₂ = some h₂ → h₂.Matches s' memory' →
      s'.phase = .ended ∨ ∃ labels h', Machine.exec (step C ownId channel) h labels = some h' ∧
        h'.Matches s' memory' := fun {l₁ l₂ h₁ h₂} hs₁ hs₂ hm' =>
    Or.inr ⟨[l₁, l₂], h₂, Machine.exec_cons_eq_some.2 ⟨h₁, hs₁,
      Machine.exec_cons_eq_some.2 ⟨h₂, hs₂, rfl⟩⟩, hm'⟩
  have rests : ∀ {phase}, s' = s.at' phase → memory' = memory → Started phase →
      auths s.phase = [] → auths phase = [] →
      s'.phase = .ended ∨ ∃ labels h', Machine.exec (step C ownId channel) h labels = some h' ∧
        h'.Matches s' memory' := by
    rintro phase rfl rfl hstarted hold hnew
    exact Or.inr ⟨[], h, rfl, hm.at' hstarted (by rw [hm.handshakes, hold, hnew])⟩
  simp only [Session.step, hkind] at hstep
  unfold hostStep at hstep
  split at hstep
  · rename_i hphase
    exact absurd hm.started (by rw [hphase]; exact id)
  · rename_i hphase
    exact absurd hm.started (by rw [hphase]; exact id)
  · rename_i hphase
    exact absurd hm.started (by rw [hphase]; exact id)
  · -- a connection comes in
    rename_i conn hphase
    split_ifs at hstep with hserve
    · obtain ⟨rfl, rfl, -⟩ := by simpa using hstep
      have hnone : h.handshakes = [] := by
        simpa [hphase, auths] using hm.handshakes
      rw [hm.memory] at hserve
      refine one (l := .begin conn.remoteId) (by rw [CardHost.step, if_pos hserve]) ?_
      refine ⟨hm.publisher, hm.memory, hm.refresh, hm.cancelled, trivial, ?_⟩
      rw [hm.memory]
      simp [hnone, auths, Session.listen, Session.at', CardHost.policy]
    · obtain ⟨rfl, rfl, -⟩ := by simpa using hstep
      exact Or.inr ⟨[], h, rfl, hm⟩
  · rename_i hphase
    obtain ⟨-, rfl, rfl, -⟩ := Session.cancel?_cases hstep
    exact rests rfl rfl trivial (by rw [hphase]; rfl) rfl
  · -- the handshake goes on, or has ended
    rename_i conn auth l code hphase
    obtain ⟨auth', hauth, ⟨-, rfl, -⟩ | ⟨key, -, hok⟩ | ⟨e, -, herr⟩⟩ :=
      Session.authStep_cases hstep
    · obtain ⟨h', hs, hm'⟩ := hm.auth C ownId channel hphase hauth
      exact one hs hm'
    · obtain ⟨rfl, -⟩ := Prod.mk.inj hok
      obtain ⟨h₁, hs₁, hm₁⟩ := hm.auth C ownId channel hphase hauth
      obtain ⟨h₂, hs₂, hm₂⟩ := hm₁.dropped C ownId channel rfl
        (show Started (.exchanging conn) from trivial) rfl
      exact two hs₁ hs₂ hm₂
    · obtain ⟨phase, hfailed, hstarted, hauths⟩ :=
        hostFailed_at' s memory' conn (e.context "auth failed")
      have hs' : s' = s.at' phase := (congrArg Prod.fst herr).symm.trans hfailed
      obtain ⟨h₁, hs₁, hm₁⟩ := hm.auth C ownId channel hphase hauth
      obtain ⟨h₂, hs₂, hm₂⟩ := hm₁.dropped C ownId channel rfl
        hstarted hauths
      subst hs'
      exact two hs₁ hs₂ hm₂
  · -- the handshake is given up
    rename_i conn auth hphase
    obtain ⟨phase, hfailed, hstarted, hauths⟩ := hostFailed_at' s memory conn (.msg "auth timeout")
    obtain ⟨hs', rfl, -⟩ := by simpa using hstep
    rw [hfailed] at hs'
    obtain ⟨h₁, hs₁, hm₁⟩ := hm.dropped C ownId channel hphase
      hstarted hauths
    subst hs'
    exact one hs₁ hm₁
  · rename_i conn card hphase
    obtain ⟨rfl, rfl, -⟩ := by simpa using hstep
    exact rests rfl rfl trivial (by rw [hphase]; rfl) rfl
  · rename_i conn e hphase
    obtain ⟨phase, hfailed, hstarted, hauths⟩ := hostFailed_at' s memory conn e
    obtain ⟨hs', rfl, -⟩ := by simpa using hstep
    exact rests (hs'.symm.trans hfailed) rfl hstarted (by rw [hphase]; rfl) hauths
  · rename_i conn hphase
    obtain ⟨phase, hfailed, hstarted, hauths⟩ := hostFailed_at' s memory conn exchangeTimeout
    obtain ⟨hs', rfl, -⟩ := by simpa using hstep
    exact rests (hs'.symm.trans hfailed) rfl hstarted (by rw [hphase]; rfl) hauths
  · obtain ⟨rfl, rfl, -⟩ := by simpa using hstep
    exact Or.inr ⟨[], h, rfl, hm⟩
  · rename_i hphase
    obtain ⟨rfl, rfl, -⟩ := by simpa using hstep
    exact rests rfl rfl trivial (by rw [hphase]; rfl) rfl
  · obtain ⟨rfl, -, -⟩ := by simpa using hstep
    exact Or.inl rfl
  · -- the publisher moves
    split at hstep
    · rename_i p hp
      obtain ⟨r, hr, hres⟩ := Option.map_eq_some_iff.1 hstep
      obtain ⟨rfl, rfl, -⟩ := by simpa using hres
      obtain ⟨h₁, hs₁, hm₁⟩ := hm.published ownId hp hr
      exact one hs₁ hm₁
    · cases hstep
  · cases hstep

section Sample

open Sample

/-- A host that has shown no PIN yet. -/
def fresh : CardHost :=
  ⟨.minting, .new (.serverCardSetup .lanOnly), false, false, [], 0, []⟩

/-- The host that has just begun, with an empty memory. -/
lemma fresh_starts : fresh.Starts plain := ⟨rfl, rfl, rfl, by simp [fresh, SessionMemory.new]⟩

/-- The host shows a PIN and leaves its password. -/
def shows (pin : String) : List CardHostLabel :=
  [.publish (.mint pin none), .publish (.derived true true true true true)]

/-- The user asks for a new PIN, and the request is processed. -/
def asks : List CardHostLabel := [.ask, .publish .refresh]

/-- A handshake goes on until just before it claims the pairing. -/
def provesPin : List CardHostLabel := proves.dropLast.map (.auth 0)

/-- A device joins with a PIN that was shown after a request for a new one. -/
def afterRefresh : List CardHostLabel :=
  shows "OLDPIN00" ++ asks ++ shows pin ++ .begin joinerId :: joins.map (.auth 0) ++ provesPin

/-- A device joins with a PIN, and while it does the user asks for a new one, which is shown. -/
def duringRefresh : List CardHostLabel :=
  shows pin ++ .begin joinerId :: joins.map (.auth 0) ++ asks ++ shows "NEWPIN00" ++ provesPin

/-- Whether a handshake is about to claim the pairing. -/
def commits : Handshake (Option PublicKey) → Bool
  | .call .commitPin _ => true
  | _ => false

/-- A program that is found to commit asks for a PIN commit next. -/
lemma call_of_commits {p : Handshake (Option PublicKey)} (h : commits p = true) :
    ∃ k, p = .call .commitPin k := by
  cases p with
  | call o k =>
    cases o with
    | commitPin => exact ⟨k, rfl⟩
    | _ => cases h
  | _ => cases h

/-- Whether the first handshake is about to claim the pairing, with a snapshot of a round. -/
def commitsIn (h : CardHost) (n : ℕ) : Bool :=
  h.handshakes[0]?.any fun a => commits a.auth.prog && a.since = some n

/-- A host that is found to commit has a handshake that asks for a PIN commit next, on the passwords
of that round. -/
lemma commit_of_commitsIn {n : ℕ} (hc : h.commitsIn n = true) :
    ∃ a ∈ h.handshakes, a.since = some n ∧ ∃ k, a.auth.prog = .call .commitPin k := by
  obtain ⟨a, ha, hr⟩ := (Option.any_eq_true _ _).1 hc
  obtain ⟨hcommit, hsince⟩ := Bool.and_eq_true_iff.1 hr
  exact ⟨a, List.mem_of_getElem? ha, of_decide_eq_true hsince, call_of_commits hcommit⟩

/-- A device that joins after a request for a new PIN rests on a PIN that was shown since.

**Proof sketch.** The run is computed, and no handshake is under way when the request is processed.
-/
theorem refresh_revokes_sample : ∃ h, Machine.exec (step plain hostId .lanOnly) fresh afterRefresh =
    some h ∧ ∃ a ∈ h.handshakes, ∃ pw, RestsOn plain hostId a pw ∧
      Round plain h.shown h.refreshes pw := by
  have hrun : ((Machine.exec (step plain hostId .lanOnly) fresh afterRefresh).any
      fun h => h.commitsIn 1) = true := by decide +kernel
  obtain ⟨h, hexec, hcommit⟩ := (Option.any_eq_true _ _).1 hrun
  obtain ⟨hrounds, hlast⟩ := refresh_revokes fresh_starts hexec
  obtain ⟨a, ha, -, hk⟩ := commit_of_commitsIn hcommit
  obtain ⟨n, -, -, ⟨pw, hrests⟩, -⟩ := hrounds a ha hk
  refine ⟨h, hexec, a, ha, pw, hrests, hlast ?_ a ha pw hrests⟩
  -- no handshake is under way when the request is processed
  refine Machine.meets_of_check (c := fun h l => match l with
    | .publish .refresh => h.handshakes.isEmpty
    | _ => true) (fun h l hc hl a ha => ?_) (by decide +kernel)
  subst hl
  rw [List.isEmpty_iff.1 hc] at ha
  cases ha

/-- A device that joins while the user asks for a new PIN is admitted, and rests on a PIN that was
shown before.

**Proof sketch.** The run is computed. The password of the handshake is that of the first PIN, and
the current round has shown another one only. -/
theorem refresh_races : ∃ h h', Machine.exec (step plain hostId .lanOnly) fresh duringRefresh =
    some h ∧ h.refreshes = 1 ∧ (∃ a ∈ h.handshakes, ∃ pw, RestsOn plain hostId a pw ∧
      ¬ Round plain h.shown h.refreshes pw) ∧
    h.step plain hostId .lanOnly (.auth 0 (.policy 0)) = some h' ∧
    h'.memory.claim.peer = some ⟨none, some joinerId⟩ := by
  have hrun : ((Machine.exec (step plain hostId .lanOnly) fresh duringRefresh).any
      fun h => h.commitsIn 0 && h.refreshes = 1 && h.shown = [(0, pin), (1, "NEWPIN00")] &&
        (h.step plain hostId .lanOnly (.auth 0 (.policy 0))).any
          fun h' => h'.memory.claim.peer = some ⟨none, some joinerId⟩) = true := by decide +kernel
  obtain ⟨h, hexec, hr⟩ := (Option.any_eq_true _ _).1 hrun
  obtain ⟨hr, hgranted⟩ := Bool.and_eq_true_iff.1 hr
  obtain ⟨hr, hshown⟩ := Bool.and_eq_true_iff.1 hr
  obtain ⟨hcommit, hone⟩ := Bool.and_eq_true_iff.1 hr
  obtain ⟨h', hstep, hpeer⟩ := (Option.any_eq_true _ _).1 hgranted
  obtain ⟨a, ha, hsince, k, hprog⟩ := commit_of_commitsIn hcommit
  obtain ⟨n, -, hn, ⟨pw, hrests⟩, hround⟩ :=
    (inv_of_run fresh_starts hexec).round_of_commit ha hprog
  obtain rfl := Option.some.inj (hsince.symm.trans hn)
  have hone := of_decide_eq_true hone
  refine ⟨h, h', hexec, hone, ⟨a, ha, pw, hrests, fun hnew => ?_⟩, hstep, of_decide_eq_true hpeer⟩
  -- the two PINs stand for different passwords
  obtain ⟨p, hp, hpw⟩ := hround pw hrests
  obtain ⟨p', hp', hpw'⟩ := hnew
  rw [of_decide_eq_true hshown] at hp hp'
  rw [hone] at hp'
  obtain rfl : p = pin := by simpa using hp
  obtain rfl : p' = "NEWPIN00" := by simpa using hp'
  have hne : plain.deriveAuthKeyMaterial pin ≠ plain.deriveAuthKeyMaterial "NEWPIN00" := by
    intro he
    have : (utf8 pin ++ List.replicate 32 0).take 32 =
        (utf8 "NEWPIN00" ++ List.replicate 32 0).take 32 :=
      congrArg PinPassword.bytes (Except.ok.inj he)
    revert this
    decide +kernel
  exact hne (hpw.trans hpw'.symm)

end Sample

end CardHost

end Duocb
