import Duocb.Net.Session.Dialing

set_option relaxedAutoImplicit false
set_option autoImplicit false

/-!
# The reconnect budget

A dialer whose connection dropped tries to connect again, a bounded number of times. One counter
serves the drop and the attempts after it: the drop takes the first of ten, and so the ninth failed
attempt is the last. An attempt whose handshake fails takes none; it stops the dialer.

A dialer runs here beside a count of the attempts that have failed since its last connection.

## Main definitions

* `Duocb.Dialer`, `Duocb.Dialer.step` — a dialer beside its count.
* `Duocb.Dialer.Budgeted` — it gives up after ten failed attempts in a row, and not before.
* `Duocb.Dialer.InBudget` — no ninth attempt in a row fails, and no handshake is cut off.

## Main results

* `Duocb.Dialer.Counted.step` — the counter is one ahead of the failed attempts after a drop.
* `Duocb.Dialer.reconnect_budget` — the budget is kept in exactly the runs that do not come to its
  end, and every connection restores it.
* `Duocb.Dialer.gives_up_early` — a dialer that gives up after nine failed attempts.
-/

namespace Duocb

/-- A dialer of clipboard sessions beside a clock. For the record: how many attempts to connect have
failed since it was last connected, or since it began. -/
structure Dialer where
  timed : TimedSession
  misses : ℕ

namespace Dialer

/-- A dialer that was just spawned. -/
def start (sid : ℕ) (kind : SessionKind) (memory : SessionMemory) (now : ℕ) : Dialer :=
  ⟨.start sid kind memory now, 0⟩

/-- The count after a step: one more for a failed attempt, and none for a connection. It counts what
the source counts with its own variable, from the outside. -/
def missesAfter (d : Dialer) (l : TimedLabel) (s' : Session) : ℕ :=
  match l with
  | .own a =>
    if d.timed.session.failedAttempt a then d.misses + 1
    else match s'.phase with
      | .pumping _ _ _ => 0
      | _ => d.misses
  | _ => d.misses

section Runs

variable (C : Crypto) (ownId : EndpointId)

/-- One step of a dialer beside its count, and what others see of it. -/
def step (d : Dialer) (l : TimedLabel) : Option (Dialer × List Out) :=
  (d.timed.step C ownId l).map fun (timed, outs) => (⟨timed, d.missesAfter l timed.session⟩, outs)

/-- After a connection was made once: the dialer gives up in the step in which the last attempt of
its budget fails, and every attempt before that is followed by another one. A refusal may read as it
likes. -/
structure Budgeted (d : Dialer) (l : TimedLabel) : Prop where
  gaveUp : ∀ d' outs, d.step C ownId l = some (d', outs) →
    d.timed.session.connectedBefore = true → Out.error giveUpMessage ∈ outs →
    (d.timed.session.Authenticating → ∃ a, l = .own a ∧ d.timed.session.failedAttempt a = true) →
    (∃ a, l = .own a ∧ d.timed.session.failedAttempt a = true) ∧
      d.misses + 1 = MAX_CONNECT_ATTEMPTS
  retried : ∀ d' outs a, d.step C ownId l = some (d', outs) →
    d.timed.session.connectedBefore = true → l = .own a →
    d.timed.session.failedAttempt a = true → d.misses + 1 < MAX_CONNECT_ATTEMPTS →
    d'.timed.session.phase = .sleeping
  exhausted : ∀ d' outs a, d.step C ownId l = some (d', outs) →
    d.timed.session.connectedBefore = true → l = .own a →
    d.timed.session.failedAttempt a = true → d.misses + 1 = MAX_CONNECT_ATTEMPTS →
    Out.error giveUpMessage ∈ outs

/-- After a connection was made once: no attempt fails that would be the last but one of the budget,
and none fails in its handshake. -/
def InBudget (d : Dialer) (l : TimedLabel) : Prop :=
  ∀ a, l = .own a → d.timed.session.connectedBefore = true →
    d.timed.session.failedAttempt a = true →
    d.misses + 2 ≠ MAX_CONNECT_ATTEMPTS ∧ ¬ d.timed.session.Authenticating

variable (identity : KeyIdentity) (peer : PublicKey) (channel : SignalChannel)

/-- What holds of a dialer and its count: the counter starts anew with a connection, and after a
drop it is one ahead of the failed attempts. -/
structure Counted (d : Dialer) : Prop where
  dials : d.timed.Dials C ownId identity peer channel
  full : d.timed.session.Pumping → d.timed.session.attempts = 0 ∧ d.misses = 0
  ahead : d.timed.session.connectedBefore = true → ¬ d.timed.session.Pumping →
    ¬ d.timed.session.phase.Over →
    d.timed.session.attempts = d.misses + 1 ∧ d.timed.session.attempts < MAX_CONNECT_ATTEMPTS

end Runs

variable {C : Crypto} {ownId : EndpointId} {identity : KeyIdentity} {peer : PublicKey}
  {channel : SignalChannel} {d d' : Dialer} {l : TimedLabel} {outs : List Out}

/-- A dialer gives up when a failed attempt leaves it none. -/
lemma giveUp_mem_attemptFailed (s : Session) : Out.error giveUpMessage ∈ (attemptFailed s).2 ↔
    s.connectedBefore = true ∧ MAX_CONNECT_ATTEMPTS ≤ s.attempts + 1 := by
  simp only [attemptFailed]
  split_ifs with hb hmax
  · exact iff_of_false (by simp [Out.status, Out.error]) fun h => by simp [h.1] at hb
  · exact iff_of_true List.mem_cons_self ⟨by simpa using hb, hmax⟩
  · exact iff_of_false (by simp [Out.status, Out.error]) fun h => hmax h.2

/-- A step of a dialer is one of its session, and counts the misses. -/
lemma step_eq_some (h : d.step C ownId l = some (d', outs)) :
    d.timed.step C ownId l = some (d'.timed, outs) ∧
      d'.misses = d.missesAfter l d'.timed.session := by
  obtain ⟨⟨timed, outs'⟩, hstep, hres⟩ := Option.map_eq_some_iff.1 h
  obtain ⟨rfl, rfl⟩ := Prod.mk.inj hres
  exact ⟨hstep, rfl⟩

/-- The count of a dialer that a step leaves without a pump. -/
lemma missesAfter_of_not_pumping {a : SessionLabel} {s' : Session} (hp : ¬ s'.Pumping) :
    d.missesAfter (.own a) s' =
      if d.timed.session.failedAttempt a then d.misses + 1 else d.misses := by
  simp only [missesAfter]
  split_ifs
  · rfl
  · split
    · rename_i conn hist p hphase
      exact absurd ⟨conn, hist, p, hphase⟩ hp
    · rfl

/-- A handshake that goes on or succeeds is no failed attempt. -/
lemma not_failedAttempt_of_auth {s : Session} {conn : Conn} {auth auth' : Auth}
    {memory memory' : SessionMemory} {b : AuthLabel}
    (hf : Prog.Follows (authAsDialerKey C identity.identity peer conn.remoteId ownId) auth.hist
      auth.prog) (hphase : s.phase = .authenticating conn auth)
    (hstep : auth.step memory b = some (auth', memory')) (hgood : ∀ e, auth'.prog ≠ .fail e)
    (code : Option ℕ) : s.failedAttempt (.auth b code) = false := by
  obtain ⟨e, rfl, -, hfail, -⟩ := authAsDialerKey_answered hf hstep
  have hkept : lost e = false := by
    by_contra hl
    obtain ⟨err, herr⟩ := hfail (Or.inl (by simpa using hl))
    exact hgood err herr
  simp [Session.failedAttempt, hphase, hkept]

/-- A dialer that has just begun has missed nothing. -/
lemma Counted.start (sid now : ℕ) (memory : SessionMemory) :
    (Dialer.start sid (.client (.key identity peer channel)) memory now).Counted C ownId
      identity peer channel where
  dials := TimedSession.Dials.start sid now memory
  full h := by obtain ⟨_, _, _, h⟩ := h; cases h
  ahead h := by cases h

/-- **Every step keeps the counter one ahead of the failed attempts.**

**Proof sketch.** By the moves of a dialer. A step that goes on keeps both counters, an attempt that
fails adds one to each, and a handshake that succeeds sets both to zero. A dialer that has stopped
has nothing to count. -/
theorem Counted.step (h : d.Counted C ownId identity peer channel)
    (hstep : d.step C ownId l = some (d', outs)) : d'.Counted C ownId identity peer channel := by
  obtain ⟨htimed, hmisses⟩ := step_eq_some hstep
  have hdials := h.dials.step htimed
  -- a dialer that has stopped has nothing to count
  have ended : d'.timed.session.phase.Over → d'.Counted C ownId identity peer channel := by
    intro hover
    refine ⟨hdials, ?_, fun _ _ hlive => absurd hover hlive⟩
    rintro ⟨conn, hist, p, hphase⟩
    rw [hphase] at hover
    exact hover.elim
  obtain ⟨a, rfl, hmove⟩ | ⟨hown, hphase, -, hattempts, hbefore, -⟩ := h.dials.cases htimed
  · generalize hs : d'.timed.session = s' at hmove hmisses
    generalize d'.timed.memory = memory' at hmove
    cases hmove with
    | goes _ _ _ _ work _ made attempts before pumps =>
      refine ⟨hdials, fun hp => ?_, fun hb hp _ => ?_⟩
      · rw [hs] at hp ⊢
        obtain ⟨conn, hist, p, hphase⟩ := hp
        refine ⟨by rw [attempts]; exact (h.full (pumps.1 ⟨conn, hist, p, hphase⟩)).1, ?_⟩
        rw [hmisses]
        simp [missesAfter, made, hphase]
      · rw [hs] at hb hp ⊢
        rw [hmisses, missesAfter_of_not_pumping hp, made, attempts]
        exact h.ahead (before ▸ hb) (fun hp' => hp (pumps.2 hp')) work
    | answers b code conn auth auth' _ from_ step going =>
      obtain ⟨o, k, hcall⟩ := going
      have hmade := not_failedAttempt_of_auth (h.dials.follows _ _ from_) from_ step
        (by simp [hcall]) code
      have hnot : ¬ (d.timed.session.at' (.authenticating conn auth')).Pumping := by
        rintro ⟨_, _, _, hp⟩
        cases hp
      refine ⟨hdials, fun hp => ?_, fun hb hp hlive => ?_⟩
      · rw [hs] at hp
        exact absurd hp hnot
      · rw [hs] at hb ⊢
        rw [hmisses, missesAfter_of_not_pumping hnot, hmade]
        refine h.ahead hb ?_ (by rw [from_]; exact id)
        rintro ⟨_, _, _, hp'⟩
        cases from_.symm.trans hp'
    | connects b code conn auth auth' _ key from_ step done =>
      have hmade := not_failedAttempt_of_auth (h.dials.follows _ _ from_) from_ step
        (by simp [done]) code
      refine ⟨hdials, fun _ => ⟨by rw [hs], ?_⟩, fun _ hp => absurd ?_ hp⟩
      · rw [hmisses]
        simp [missesAfter, hmade]
      · rw [hs]
        exact ⟨_, _, _, rfl⟩
    | fails | timesOut => exact ended (by rw [hs]; trivial)
    | misses _ from_ missed =>
      obtain ⟨-, hnot⟩ := Session.attemptFailed_alone d.timed.session
      refine ⟨hdials, fun hp => absurd (hs ▸ hp) hnot, fun hb _ hlive => ?_⟩
      rw [hs, (Session.attemptFailed_counts _).2] at hb
      rw [hs, Session.attemptFailed_phase] at hlive
      rw [hs, hmisses, missesAfter_of_not_pumping hnot, missed,
        (Session.attemptFailed_counts _).1]
      obtain ⟨heq, hlt⟩ := h.ahead hb
        (by rintro ⟨_, _, _, hp⟩; rcases from_ with hf | hf <;> cases hf.symm.trans hp)
        (by rcases from_ with hf | hf <;> rw [hf] <;> exact id)
      split_ifs at hlive with hmax
      · exact absurd trivial hlive
      · have hroom : d.timed.session.attempts + 1 < MAX_CONNECT_ATTEMPTS :=
          Nat.not_le.1 fun hle => hmax ⟨hb, hle⟩
        refine ⟨?_, hroom⟩
        rw [heq, if_pos rfl]
    | drops b from_ =>
      obtain ⟨-, hnot⟩ := Session.attemptFailed_alone d.timed.session
      have hmade : d.timed.session.failedAttempt (.pump b) = false := by
        obtain ⟨_, _, _, hp⟩ := from_
        simp [Session.failedAttempt, hp]
      obtain ⟨hzero, hnone⟩ := h.full from_
      refine ⟨hdials, fun hp => absurd (hs ▸ hp) hnot, fun _ _ _ => ?_⟩
      rw [hs, hmisses, missesAfter_of_not_pumping hnot, hmade, (Session.attemptFailed_counts _).1,
        hzero, hnone]
      exact ⟨rfl, by decide⟩
    | stops _ _ _ _ into => exact ended (by rwa [hs])
  · have hsame : d'.misses = d.misses := by
      rw [hmisses]
      cases l with
      | own a => exact absurd rfl (hown a)
      | _ => rfl
    have hpump : d'.timed.session.Pumping ↔ d.timed.session.Pumping := by
      unfold Session.Pumping
      rw [hphase]
    refine ⟨hdials, fun hp => ?_, fun hb hp hlive => ?_⟩
    · rw [hattempts, hsame]
      exact h.full (hpump.1 hp)
    · rw [hattempts, hsame]
      exact h.ahead (hbefore ▸ hb) (fun hp' => hp (hpump.2 hp')) (hphase ▸ hlive)

/-- A dialer whose step keeps the budget does not come to its end.

**Proof sketch.** An attempt that fails leaves the counter at the number of failed attempts and one
more for the drop, so the ninth one exhausts it. A handshake that fails ends the dialer at once. -/
lemma Counted.inBudget (h : d.Counted C ownId identity peer channel)
    (hstep : d.step C ownId l = some (d', outs)) (hb : d.Budgeted C ownId l) : d.InBudget l := by
  rintro a rfl hbefore hfailed
  obtain ⟨htimed, -⟩ := step_eq_some hstep
  obtain ⟨a', ha, hmove⟩ | ⟨hown, -⟩ := h.dials.cases htimed
  swap
  · exact absurd rfl (hown a)
  obtain rfl := TimedLabel.own.inj ha
  generalize hs : d'.timed.session = s' at hmove
  generalize d'.timed.memory = memory' at hmove
  cases hmove with
  | goes _ _ _ _ _ _ made => rw [made] at hfailed; cases hfailed
  | stops _ _ _ _ _ _ made => rw [made] at hfailed; cases hfailed
  | answers b code conn auth auth' _ from_ step going =>
    obtain ⟨o, k, hcall⟩ := going
    rw [not_failedAttempt_of_auth (h.dials.follows _ _ from_) from_ step (by simp [hcall])]
      at hfailed
    cases hfailed
  | connects b code conn auth auth' _ key from_ step done =>
    rw [not_failedAttempt_of_auth (h.dials.follows _ _ from_) from_ step (by simp [done])]
      at hfailed
    cases hfailed
  | timesOut from_ =>
    obtain ⟨conn, auth, hphase⟩ := from_
    simp [Session.failedAttempt, hphase] at hfailed
  | drops b from_ =>
    obtain ⟨_, _, _, hp⟩ := from_
    simp [Session.failedAttempt, hp] at hfailed
  | fails b code conn auth auth' _ e from_ =>
    -- the dialer stops, though its budget is not exhausted
    obtain ⟨heq, hlt⟩ := h.ahead hbefore (by rintro ⟨_, _, _, hp⟩; cases from_.symm.trans hp)
      (by rw [from_]; exact id)
    have hsleeping := hb.retried d' _ _ hstep hbefore rfl hfailed (by omega)
    rw [hs] at hsleeping
    cases hsleeping
  | misses _ from_ _ =>
    obtain ⟨heq, hlt⟩ := h.ahead hbefore
      (by rintro ⟨_, _, _, hp⟩; rcases from_ with hf | hf <;> cases hf.symm.trans hp)
      (by rcases from_ with hf | hf <;> rw [hf] <;> exact id)
    refine ⟨fun hlast => ?_, ?_⟩
    · have hgave := (hb.gaveUp d' _ hstep hbefore
        ((giveUp_mem_attemptFailed _).2 ⟨hbefore, by omega⟩) fun _ => ⟨a, rfl, hfailed⟩).2
      omega
    · rintro ⟨conn, auth, hp⟩
      rcases from_ with hf | hf <;> cases hf.symm.trans hp

/-- Where the budget does not come to its end, it is kept.

**Proof sketch.** The counter is one ahead of the attempts that failed, so a dialer with room for
more goes on. The clauses of the budget are then read off the moves of a dialer. -/
lemma Counted.budgeted (h : d.Counted C ownId identity peer channel)
    (hstep : d.step C ownId l = some (d', outs)) (hin : d.InBudget l) : d.Budgeted C ownId l := by
  obtain ⟨htimed, -⟩ := step_eq_some hstep
  have same : ∀ d'' outs', d.step C ownId l = some (d'', outs') → d'' = d' ∧ outs' = outs := by
    intro d'' outs' h'
    exact Prod.mk.inj (Option.some.inj (h'.symm.trans hstep))
  -- an attempt that fails was to find or to reach the target, and leaves room for more
  have missed : ∀ a, l = .own a → d.timed.session.connectedBefore = true →
      d.timed.session.failedAttempt a = true → d.misses + 2 < MAX_CONNECT_ATTEMPTS ∧
        d.timed.session.attempts = d.misses + 1 := by
    intro a hl hbefore hfailed
    obtain ⟨hlast, hauth⟩ := hin a hl hbefore hfailed
    have hpump : ¬ d.timed.session.Pumping := by
      rintro ⟨_, _, _, hp⟩
      simp [Session.failedAttempt, hp] at hfailed
    have hlive : ¬ d.timed.session.phase.Over := by
      intro hover
      cases hp : d.timed.session.phase <;> rw [hp] at hover <;>
        first | exact hover.elim | simp [Session.failedAttempt, hp] at hfailed
    obtain ⟨heq, hlt⟩ := h.ahead hbefore hpump hlive
    exact ⟨by omega, heq⟩
  constructor
  · intro d'' outs' h' hbefore hmem hauth
    obtain ⟨rfl, rfl⟩ := same d'' outs' h'
    exfalso
    have refused : d.timed.session.Authenticating → False := by
      intro ha
      obtain ⟨a, rfl, hfailed⟩ := hauth ha
      exact (hin a rfl hbefore hfailed).2 ha
    obtain ⟨a, rfl, hmove⟩ | ⟨-, -, -, -, -, rfl⟩ := h.dials.cases htimed
    swap
    · cases hmem
    generalize d''.timed.session = s' at hmove
    generalize d''.timed.memory = memory' at hmove
    cases hmove with
    | goes _ _ _ _ _ _ _ _ _ _ _ silent => exact silent hmem
    | stops _ _ _ _ _ _ _ _ _ silent => exact silent hmem
    | answers => cases hmem
    | connects _ _ conn auth _ _ _ from_ => exact refused ⟨conn, auth, from_⟩
    | fails _ _ conn auth _ _ _ from_ => exact refused ⟨conn, auth, from_⟩
    | timesOut from_ => exact refused from_
    | misses _ _ hfailed =>
      obtain ⟨hroom, heq⟩ := missed a rfl hbefore hfailed
      have hmax := ((giveUp_mem_attemptFailed _).1 hmem).2
      omega
    | drops _ from_ =>
      rcases List.mem_cons.1 hmem with he | hmem
      · cases he
      · have hmax := ((giveUp_mem_attemptFailed _).1 hmem).2
        rw [(h.full from_).1] at hmax
        exact absurd hmax (by decide)
  · rintro d'' outs' a h' hbefore rfl hfailed -
    obtain ⟨rfl, rfl⟩ := same d'' outs' h'
    obtain ⟨hroom, heq⟩ := missed a rfl hbefore hfailed
    obtain ⟨-, hauth⟩ := hin a rfl hbefore hfailed
    obtain ⟨a', ha, hmove⟩ | ⟨hown, -⟩ := h.dials.cases htimed
    swap
    · exact absurd rfl (hown a)
    obtain rfl := TimedLabel.own.inj ha
    generalize d''.timed.session = s' at hmove
    generalize d''.timed.memory = memory' at hmove
    cases hmove with
    | goes _ _ _ _ _ _ made => rw [made] at hfailed; cases hfailed
    | stops _ _ _ _ _ _ made => rw [made] at hfailed; cases hfailed
    | answers _ _ conn auth _ _ from_ => exact absurd ⟨conn, auth, from_⟩ hauth
    | connects _ _ conn auth _ _ _ from_ => exact absurd ⟨conn, auth, from_⟩ hauth
    | fails _ _ conn auth _ _ _ from_ => exact absurd ⟨conn, auth, from_⟩ hauth
    | timesOut from_ => exact absurd from_ hauth
    | misses =>
      rw [Session.attemptFailed_phase, if_neg]
      rintro ⟨-, hmax⟩
      omega
    | drops _ from_ =>
      obtain ⟨_, _, _, hp⟩ := from_
      simp [Session.failedAttempt, hp] at hfailed
  · intro d'' outs' a h' hbefore hl hfailed hlast
    obtain ⟨hroom, -⟩ := missed a hl hbefore hfailed
    omega

/-- **The reconnect budget is kept in exactly the runs that do not come to its end.** In every run
of a dialer, after its first connection: it gives up in the step in which the tenth attempt in a row
fails and in no other, and every failed attempt before is followed by another one, if and only if no
ninth attempt in a row fails and none fails in its handshake. In every run a dialer that pumps has
its whole budget.

**Proof sketch.** In both directions the runs are compared step by step, under the invariant of the
counter. While a session is pumping the counter was reset by the handshake before it. -/
theorem reconnect_budget {sid now : ℕ} {memory : SessionMemory} {labels : List TimedLabel}
    {before : List Out} (hrun : Machine.run (step C ownId)
      (.start sid (.client (.key identity peer channel)) memory now) labels = some (d, before)) :
    (Machine.Meets (fun d l => (d.step C ownId l).map Prod.fst) (Budgeted C ownId)
        (.start sid (.client (.key identity peer channel)) memory now) labels ↔
      Machine.Meets (fun d l => (d.step C ownId l).map Prod.fst) InBudget
        (.start sid (.client (.key identity peer channel)) memory now) labels) ∧
    (d.timed.session.Pumping → d.timed.session.attempts = 0 ∧ d.misses = 0) := by
  have hstart : (Dialer.start sid (.client (.key identity peer channel)) memory now).Counted C ownId
      identity peer channel := Counted.start sid now memory
  have keep : ∀ (d : Dialer) l d', d.Counted C ownId identity peer channel →
      (d.step C ownId l).map Prod.fst = some d' → d'.Counted C ownId identity peer channel := by
    intro d l d' h hl
    obtain ⟨⟨d₁, outs⟩, hstep, rfl⟩ := Option.map_eq_some_iff.1 hl
    exact h.step hstep
  have hexec := Machine.exec_of_run hrun
  refine ⟨Machine.meets_congr keep (fun d l d' h hl => ?_) hstart hexec, ?_⟩
  · obtain ⟨⟨d₁, outs⟩, hstep, -⟩ := Option.map_eq_some_iff.1 hl
    exact ⟨h.inBudget hstep, h.budgeted hstep⟩
  · exact (Machine.reachable_invariant hstart keep ⟨labels, hexec⟩).full

section Sample

open Sample TimedSession

/-- The dialer as it is spawned. -/
def dialer : Dialer := .start 0 dialSpec ⟨sessionKey dialSpec, .empty, []⟩ 0

/-- The dialer connects, and its connection drops. -/
def drops : List TimedLabel :=
  firstDial ++ [verdict, .own (.pump (.writeError (.msg "connection lost")))]

/-- It does not find its target, -/
def miss : TimedLabel := .own (.resolved (.error (.msg "no record")))

/-- a number of times. -/
def searches (n : ℕ) : List TimedLabel := (List.replicate n [miss, .own .slept]).flatten

/-- Whether a step stays in the budget. A failed attempt must leave room for another one, and must
not be that of a handshake. -/
def inBudget (d : Dialer) : TimedLabel → Bool
  | .own a => !d.timed.session.failedAttempt a || (d.misses + 2 != MAX_CONNECT_ATTEMPTS &&
      match d.timed.session.phase with
      | .authenticating _ _ => false
      | _ => true)
  | _ => true

/-- A step that is found to be within the budget is. -/
lemma inBudget_of (h : d.inBudget l = true) : d.InBudget l := by
  rintro a rfl - hfailed
  simp only [inBudget, hfailed, Bool.not_true, Bool.false_or, Bool.and_eq_true, bne_iff_ne] at h
  refine ⟨h.1, ?_⟩
  rintro ⟨conn, auth, hphase⟩
  simp [hphase] at h

/-- A dialer that finds its target again after three failed attempts has its whole budget.

**Proof sketch.** The run is computed, and each of its steps stays in the budget. -/
theorem reconnect_budget_sample : ∃ d before, Machine.run (step keyed joinerId) dialer
    (drops ++ .own .slept :: searches 3 ++ dials ++ [verdict]) = some (d, before) ∧
    d.timed.session.attempts = 0 ∧ d.misses = 0 ∧
    Machine.Meets (fun d l => (d.step keyed joinerId l).map Prod.fst) (Budgeted keyed joinerId)
      dialer (drops ++ .own .slept :: searches 3 ++ dials ++ [verdict]) := by
  have hrun : ((Machine.run (step keyed joinerId) dialer
      (drops ++ .own .slept :: searches 3 ++ dials ++ [verdict])).any
        fun r => match r.1.timed.session.phase with
          | .pumping _ _ _ => true
          | _ => false) = true := by decide +kernel
  obtain ⟨⟨d, before⟩, hexec, hp⟩ := (Option.any_eq_true _ _).1 hrun
  obtain ⟨hiff, hfull⟩ := reconnect_budget hexec
  have hmeets := hiff.2 (Machine.meets_of_check (fun _ _ => inBudget_of) (by decide +kernel))
  split at hp
  · rename_i conn hist p hphase
    obtain ⟨hattempts, hmisses⟩ := hfull ⟨conn, hist, p, hphase⟩
    exact ⟨d, before, hexec, hattempts, hmisses, hmeets⟩
  · cases hp

/-- A dialer gives up, and reports ten attempts, when the ninth one after a drop has failed.

**Proof sketch.** The run is computed. Its last step is the ninth attempt that fails, and it ends
the dialer. -/
theorem gives_up_early : ∃ d before, Machine.run (step keyed joinerId) dialer
    (drops ++ .own .slept :: searches 8 ++ [miss]) = some (d, before) ∧ d.misses = 9 ∧
    Out.error giveUpMessage ∈ before ∧
    ¬ Machine.Meets (fun d l => (d.step keyed joinerId l).map Prod.fst) (Budgeted keyed joinerId)
      dialer (drops ++ .own .slept :: searches 8 ++ [miss]) := by
  have hrun : ((Machine.run (step keyed joinerId) dialer
      (drops ++ .own .slept :: searches 8 ++ [miss])).any
        fun r => decide (r.1.misses = 9 ∧ Out.error giveUpMessage ∈ r.2)) = true := by
    decide +kernel
  have hlast : ((Machine.exec (fun d l => (step keyed joinerId d l).map Prod.fst) dialer
      (drops ++ .own .slept :: searches 8)).any fun u => u.timed.session.connectedBefore &&
        decide (u.misses = 8) &&
          (match u.timed.session.phase with | .resolving => true | _ => false) &&
        (u.step keyed joinerId miss).any fun r => decide (Out.error giveUpMessage ∈ r.2)) =
          true := by
    decide +kernel
  obtain ⟨⟨d, before⟩, hexec, hend⟩ := (Option.any_eq_true _ _).1 hrun
  obtain ⟨hnine, hgave⟩ := of_decide_eq_true hend
  refine ⟨d, before, hexec, hnine, hgave, fun hmeets => ?_⟩
  obtain ⟨u, hu, hup⟩ := (Option.any_eq_true _ _).1 hlast
  obtain ⟨-, hb⟩ := hmeets.of_append hu
  simp only [Bool.and_eq_true, decide_eq_true_eq] at hup
  obtain ⟨⟨⟨hbefore, height⟩, hresolving⟩, hstep⟩ := hup
  obtain ⟨⟨d', outs⟩, hstep, hmem⟩ := (Option.any_eq_true _ _).1 hstep
  have hten := (hb.1.gaveUp d' outs hstep hbefore (of_decide_eq_true hmem) ?_).2
  · rw [height] at hten
    revert hten
    decide
  · rintro ⟨conn, auth, hphase⟩
    rw [hphase] at hresolving
    cases hresolving

end Sample

end Dialer

end Duocb
