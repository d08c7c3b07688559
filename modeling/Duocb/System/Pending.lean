import Duocb.Net.Session.Expiry
import Duocb.System.Outbox

set_option relaxedAutoImplicit false
set_option autoImplicit false

/-!
# The pending text

A text that was sent is pending until an event clears it, and as long as it is pending no other text
can be sent. Wherever the text is lost on its way an event is put out that clears it, but for two
places: a new connection of the peer supersedes the one it is being written to, and a session that
holds it is replaced by another one.

## Main definitions

* `Duocb.NetEvent.clears` — the events that clear the pending text.
* `Duocb.Session.Reported` — a session that has reported that it is idle.
* `Duocb.System.Drops` — a step that takes the pending text from the session that holds it.
* `Duocb.System.Released` — what holds of a pending text.

## Main results

* `Duocb.Session.reported_of_step` — a session does not end before it has reported so.
* `Duocb.Session.kept_of_step` — a text that is lost is reported.
* `Duocb.System.pending_never_wedges` — a pending text is on its way, or about to be cleared.
* `Duocb.System.preempted_text_wedges` — a text that is lost when the peer connects anew.
-/

namespace Duocb

/-- Whether an event clears the pending text. -/
def NetEvent.clears : NetEvent → Bool
  | .itemSent | .error _ | .peerDisconnected | .status .idle => true
  | _ => false

/-! ## Sessions that have reported their end -/

/-- A session that has reported that it is idle: it has returned, or it only closes its endpoint.
The two halves of a card setup report so after they have closed it. -/
def Session.Reported (s : Session) : Prop :=
  s.phase = .ended ∨ (s.phase = .closing ∧ s.kind.isCardSetup = false)

/-- What a step leaves that does not end the session unreported. -/
def Session.Tells (s' : Session) (outs : List Out) : Prop :=
  ¬ s'.Reported ∨ ∃ pre, outs = pre ++ [.status .idle]

namespace Session

variable {C : Crypto} {ownId : EndpointId} {s s' : Session} {memory memory' : SessionMemory}
  {l : SessionLabel} {outs : List Out}

/-- A task on its way has not reported that it is idle. -/
lemma not_reported_of_phase (hended : s.phase ≠ .ended) (hclosing : s.phase ≠ .closing) :
    ¬ s.Reported := by
  rintro (h | ⟨h, -⟩)
  · exact hended h
  · exact hclosing h

/-- A card setup has not reported that it is idle before it has returned. -/
lemma not_reported_of_cardSetup (hended : s.phase ≠ .ended) (hkind : s.kind.isCardSetup = true) :
    ¬ s.Reported := by
  rintro (h | ⟨-, h⟩)
  · exact hended h
  · rw [hkind] at h
    cases h

/-- A step to a place where the session does not end. -/
lemma Tells.of_phase (hended : s'.phase ≠ .ended) (hclosing : s'.phase ≠ .closing) :
    s'.Tells outs :=
  Or.inl (not_reported_of_phase hended hclosing)

/-- A task that puts out idle last has told so. -/
lemma Tells.of_idle (pre : List Out) : s'.Tells (pre ++ [.status .idle]) := Or.inr ⟨pre, rfl⟩

/-- A failed attempt of a dialer goes on, or reports that it is idle. -/
lemma tells_of_attemptFailed (pre : List Out) (h : attemptFailed s = (s', outs)) :
    s'.Tells (pre ++ outs) := by
  simp only [attemptFailed] at h
  split_ifs at h
  · obtain ⟨rfl, rfl⟩ := Prod.mk.inj h
    exact .of_phase (by simp) (by simp)
  · obtain ⟨rfl, rfl⟩ := Prod.mk.inj h
    exact Or.inr ⟨pre ++ [.error _], by rw [List.append_assoc]; rfl⟩
  · obtain ⟨rfl, rfl⟩ := Prod.mk.inj h
    exact .of_phase (by simp) (by simp)

/-- A host does not end before it has reported so, unless it is cancelled.

**Proof sketch.** By the branches of the step function of a host: each one that ends the task puts
out the report with it. -/
lemma server_tells {identity : KeyIdentity} {peer : PublicKey} {channel : SignalChannel}
    (hkind : s.kind = .server (.key identity peer channel)) (hcancelled : s.cancelled = false)
    (hs : ¬ s.Reported)
    (h : serverStep C ownId identity peer channel s memory l = some (s', memory', outs)) :
    s'.Tells outs := by
  have hclosing : s.phase ≠ .closing := fun hp => hs (Or.inr ⟨hp, by rw [hkind]; rfl⟩)
  have hended : s.phase ≠ .ended := fun hp => hs (Or.inl hp)
  unfold serverStep at h
  split at h
  case h_2 e hphase =>
    obtain ⟨rfl, -, rfl⟩ := by simpa [failedToStart] using h
    exact .of_idle [_]
  case h_5 | h_9 =>
    obtain ⟨hc, -⟩ := cancel?_cases h
    rw [hcancelled] at hc
    cases hc
  case h_6 conn auth a code hphase =>
    obtain ⟨auth', -, ⟨-, rfl, -⟩ | ⟨key, -, hok⟩ | ⟨e, -, herr⟩⟩ := authStep_cases h
    · exact .of_phase (by simp) (by simp)
    · obtain ⟨rfl, -⟩ := Prod.mk.inj hok
      exact .of_phase (by simp) (by simp)
    · obtain ⟨rfl, -⟩ := Prod.mk.inj herr
      exact .of_phase (by simp) (by simp)
  case h_8 conn hist p a hphase =>
    obtain ⟨-, ⟨p', clip', out, -, rfl, -⟩ | ⟨r, clip', out, -, hover⟩⟩ := pumpStep_cases h
    · exact .of_phase (by simp) (by simp)
    · rw [hcancelled] at hover
      obtain ⟨rfl, -⟩ := Prod.mk.inj hover
      exact .of_phase (by simp) (by simp)
  case h_4 conn hphase =>
    split_ifs at h
    · obtain ⟨rfl, -⟩ := by simpa using h
      exact .of_phase (by simp [listen]) (by simp [listen])
    · obtain ⟨rfl, -⟩ := by simpa using h
      exact Or.inl hs
  case h_10 conn hist p next hphase =>
    split_ifs at h with hserve hc
    · rw [hcancelled] at hc
      cases hc
    · obtain ⟨rfl, -⟩ := by simpa using h
      exact .of_phase (by simp [listen]) (by simp [listen])
    · obtain ⟨rfl, -⟩ := by simpa using h
      exact Or.inl hs
  case h_11 hphase => exact absurd hphase hclosing
  case h_12 r hphase =>
    split at h
    · obtain ⟨rfl, -⟩ := by simpa using h
      exact Or.inl hs
    · cases h
  case h_13 => cases h
  all_goals
    obtain ⟨rfl, -⟩ := by simpa using h
    exact .of_phase (by simp) (by simp)

/-- A dialer does not end before it has reported so, unless it is cancelled.

**Proof sketch.** By the branches of the step function of a dialer: each one that ends the task puts
out the report with it. -/
lemma client_tells {identity : KeyIdentity} {peer : PublicKey} {channel : SignalChannel}
    (hkind : s.kind = .client (.key identity peer channel)) (hcancelled : s.cancelled = false)
    (hs : ¬ s.Reported)
    (h : clientStep C ownId identity peer s memory l = some (s', memory', outs)) :
    s'.Tells outs := by
  have hclosing : s.phase ≠ .closing := fun hp => hs (Or.inr ⟨hp, by rw [hkind]; rfl⟩)
  unfold clientStep at h
  split at h
  case h_1 now hphase =>
    split at h
    · rename_i card hcard
      obtain ⟨rfl, -, rfl⟩ := by simpa using h
      exact .of_idle [_, _]
    · obtain ⟨rfl, -⟩ := by simpa using h
      exact .of_phase (by simp) (by simp)
  case h_2 e hphase =>
    obtain ⟨rfl, -, rfl⟩ := by simpa [failedToStart] using h
    exact .of_idle [_]
  case h_4 hphase => simp [hcancelled] at h
  case h_5 id hphase =>
    split_ifs at h
    · obtain ⟨rfl, -, rfl⟩ := by simpa using h
      exact .of_idle [_]
    · obtain ⟨rfl, -⟩ := by simpa using h
      exact .of_phase (by simp) (by simp)
  case h_6 | h_9 =>
    obtain ⟨rfl, -, rfl⟩ := by simpa using h
    exact tells_of_attemptFailed [] rfl
  case h_7 | h_13 | h_14 =>
    obtain ⟨hc, -⟩ := cancel?_cases h
    rw [hcancelled] at hc
    cases hc
  case h_10 conn auth a code hphase =>
    obtain ⟨auth', -, ⟨-, rfl, -⟩ | ⟨key, -, hok⟩ | ⟨e, -, herr⟩⟩ := authStep_cases h
    · exact .of_phase (by simp) (by simp)
    · obtain ⟨rfl, -⟩ := Prod.mk.inj hok
      exact .of_phase (by simp) (by simp)
    · obtain ⟨-, rfl⟩ := Prod.mk.inj herr
      exact .of_idle [_]
  case h_11 =>
    obtain ⟨-, -, rfl⟩ := by simpa using h
    exact .of_idle [_]
  case h_12 conn hist p a hphase =>
    obtain ⟨-, ⟨p', clip', out, -, rfl, -⟩ | ⟨r, clip', out, -, hover⟩⟩ := pumpStep_cases h
    · exact .of_phase (by simp) (by simp)
    · rw [hcancelled] at hover
      obtain ⟨rfl, rfl⟩ := Prod.mk.inj hover
      exact tells_of_attemptFailed [_] rfl
  case h_16 hphase => exact absurd hphase hclosing
  case h_17 => cases h
  all_goals
    obtain ⟨rfl, -⟩ := by simpa using h
    exact .of_phase (by simp [greet]) (by simp [greet])

/-- What follows a failed attempt of a joiner at a host of a card setup. -/
lemma tells_of_hostFailed {conn : Conn} {e : Error} (hkind : s.kind.isCardSetup = true)
    (h : hostFailed s memory conn e = (s', outs)) (pre : List Out) : s'.Tells (pre ++ outs) := by
  unfold hostFailed at h
  split_ifs at h
  · obtain ⟨rfl, -⟩ := Prod.mk.inj h
    exact Or.inl (not_reported_of_cardSetup (by simp) hkind)
  · obtain ⟨rfl, -⟩ := Prod.mk.inj h
    exact .of_phase (by simp) (by simp)

/-- The host of a card setup does not return before it has reported so.

**Proof sketch.** By the branches of the step function: each one that ends the task puts out the
report with it. -/
lemma host_tells {card : IdentityCard} {channel : SignalChannel} {relays : List String}
    (hkind : s.kind = .server (.cardSetup card channel relays)) (hs : ¬ s.Reported)
    (h : hostStep C ownId channel s memory l = some (s', memory', outs)) : s'.Tells outs := by
  have hsetup : s.kind.isCardSetup = true := by rw [hkind]; rfl
  have hmoves : ∀ phase : Phase, phase ≠ .ended → (s.at' phase).Tells outs := fun phase hp =>
    Or.inl (not_reported_of_cardSetup hp hsetup)
  unfold hostStep at h
  split at h
  case h_2 e hphase =>
    obtain ⟨rfl, -, rfl⟩ := by simpa [failedToStart] using h
    exact .of_idle [_]
  case h_3 =>
    obtain ⟨rfl, -⟩ := by simpa using h
    exact .of_phase (by simp) (by simp)
  case h_4 conn hphase =>
    split_ifs at h
    · obtain ⟨rfl, -⟩ := by simpa using h
      exact hmoves _ (by simp)
    · obtain ⟨rfl, -⟩ := by simpa using h
      exact Or.inl hs
  case h_5 =>
    obtain ⟨-, rfl, -⟩ := cancel?_cases h
    exact hmoves _ (by simp)
  case h_6 conn auth a code hphase =>
    obtain ⟨auth', -, ⟨-, rfl, -⟩ | ⟨key, -, hok⟩ | ⟨e, -, herr⟩⟩ := authStep_cases h
    · exact hmoves _ (by simp)
    · obtain ⟨rfl, -⟩ := Prod.mk.inj hok
      exact hmoves _ (by simp)
    · obtain ⟨rfl, rfl⟩ := Prod.mk.inj herr
      exact tells_of_hostFailed hsetup rfl [_]
  case h_7 conn auth hphase =>
    obtain ⟨rfl, -, rfl⟩ := by simpa using h
    exact tells_of_hostFailed hsetup rfl [_]
  case h_9 | h_10 =>
    obtain ⟨rfl, -, rfl⟩ := by simpa using h
    exact tells_of_hostFailed hsetup rfl []
  case h_11 =>
    obtain ⟨rfl, -⟩ := by simpa using h
    exact Or.inl hs
  case h_13 =>
    obtain ⟨-, -, rfl⟩ := by simpa using h
    exact .of_idle []
  case h_14 p hphase =>
    split at h
    · obtain ⟨⟨p', sh, es⟩, -, hres⟩ := Option.map_eq_some_iff.1 h
      obtain ⟨rfl, -⟩ := by simpa using hres
      exact Or.inl hs
    · cases h
  case h_15 => cases h
  all_goals
    obtain ⟨rfl, -⟩ := by simpa using h
    exact hmoves _ (by simp)

/-- A joiner does not return before it has reported so.

**Proof sketch.** By the branches of the step function: each one that ends the task puts out the
report with it. -/
lemma joiner_tells {pin : String} {card : IdentityCard} {ip : Option IpAddr}
    {channel : SignalChannel} {relays : List String}
    (hkind : s.kind = .client (.cardSetup pin card ip channel relays))
    (h : joinerStep C ownId pin s memory l = some (s', memory', outs)) : s'.Tells outs := by
  have hsetup : s.kind.isCardSetup = true := by rw [hkind]; rfl
  have hmoves : ∀ phase : Phase, phase ≠ .ended → (s.at' phase).Tells outs := fun phase hp =>
    Or.inl (not_reported_of_cardSetup hp hsetup)
  unfold joinerStep at h
  split at h
  case h_2 e hphase =>
    obtain ⟨rfl, -, rfl⟩ := by simpa [failedToStart] using h
    exact .of_idle [_]
  case h_4 | h_7 =>
    obtain ⟨-, rfl, -⟩ := cancel?_cases h
    exact hmoves _ (by simp)
  case h_5 id hphase =>
    split_ifs at h
    · obtain ⟨rfl, -⟩ := by simpa [joinerFailed] using h
      exact hmoves _ (by simp)
    · obtain ⟨rfl, -⟩ := by simpa using h
      exact hmoves _ (by simp)
  case h_10 conn auth a code hphase =>
    obtain ⟨auth', -, ⟨-, rfl, -⟩ | ⟨key, -, hok⟩ | ⟨e, -, herr⟩⟩ := authStep_cases h
    · exact hmoves _ (by simp)
    · obtain ⟨rfl, -⟩ := Prod.mk.inj hok
      exact hmoves _ (by simp)
    · obtain ⟨rfl, -⟩ := Prod.mk.inj herr
      exact hmoves _ (by simp)
  case h_15 =>
    obtain ⟨-, -, rfl⟩ := by simpa using h
    exact .of_idle []
  case h_16 => cases h
  all_goals
    obtain ⟨rfl, -⟩ := by simpa [joinerFailed, greet] using h
    exact hmoves _ (by simp)

/-- **A session does not end before it has reported so**, unless it is cancelled. -/
theorem reported_of_step (hcancelled : s.cancelled = false) (hs : ¬ s.Reported)
    (h : s.step C ownId memory l = some (s', memory', outs)) : s'.Tells outs := by
  unfold step at h
  split at h
  · exact server_tells ‹_› hcancelled hs h
  · exact host_tells ‹_› hs h
  · exact client_tells ‹_› hcancelled hs h
  · exact joiner_tells ‹_› h

/-- A session that is ending does not report a connection.

**Proof sketch.** A connection is reported at the end of a handshake only, and a task that is ending
has none. -/
lemma not_connected_of_over (hover : s.phase.Over)
    (h : s.step C ownId memory l = some (s', memory', outs)) : Out.status .connected ∉ outs := by
  intro hconn
  have hnot : ∀ conn auth, s.phase ≠ .authenticating conn auth := fun conn auth hp => by
    rw [hp] at hover
    exact hover
  cases hkind : s.kind with
  | server mode =>
    cases mode with
    | key identity peer channel =>
      obtain ⟨-, -, conn, auth, -, -, -, hphase, -⟩ :=
        connected_cases (by rw [hkind]; exact .server channel) h hconn
      exact hnot conn auth hphase
    | cardSetup card channel relays =>
      simp only [step, hkind] at h
      unfold hostStep at h
      split at h
      case h_11 | h_12 | h_13 =>
        obtain ⟨-, -, rfl⟩ := by simpa using h
        simp [Out.status] at hconn
      case h_14 p hphase =>
        split at h
        · obtain ⟨⟨p', sh, es⟩, hp, hres⟩ := Option.map_eq_some_iff.1 h
          obtain ⟨-, -, rfl⟩ := by simpa using hres
          obtain ⟨e, he, heq⟩ := List.mem_map.1 hconn
          rcases PinPublisher.step_events hp e he with
            ⟨pin, secs, ip, rfl⟩ | rfl | ⟨message, rfl⟩ <;>
            cases heq
        · cases h
      case h_15 => cases h
      all_goals simp_all [Phase.Over]
  | client spec =>
    cases spec with
    | key identity peer channel =>
      obtain ⟨-, -, conn, auth, -, -, -, hphase, -⟩ :=
        connected_cases (by rw [hkind]; exact .client channel) h hconn
      exact hnot conn auth hphase
    | cardSetup pin card ip channel relays =>
      simp only [step, hkind] at h
      unfold joinerStep at h
      split at h
      case h_15 =>
        obtain ⟨-, -, rfl⟩ := by simpa using h
        simp [Out.status] at hconn
      case h_16 => cases h
      all_goals simp_all [Phase.Over]

/-- A clipboard session that closes its endpoint has nothing else left to do.

**Proof sketch.** By the kind of the session and the label: it returns, or its publisher moves. -/
lemma reported_of_closing (hphase : s.phase = .closing) (hkind : s.kind.isCardSetup = false)
    (h : s.step C ownId memory l = some (s', memory', outs)) : s'.Reported := by
  cases hk : s.kind with
  | server mode =>
    cases mode with
    | key identity peer channel =>
      simp only [step, hk] at h
      cases l with
      | closed =>
        obtain ⟨rfl, -⟩ := by simpa [serverStep, hphase] using h
        exact Or.inl rfl
      | publish p =>
        cases p with
        | hosting r =>
          simp only [serverStep, hphase] at h
          split at h
          · obtain ⟨rfl, -⟩ := by simpa using h
            exact Or.inr ⟨rfl, hkind⟩
          · cases h
        | pins p => simp [serverStep, hphase] at h
      | _ => simp [serverStep, hphase] at h
    | cardSetup card channel relays =>
      rw [hk] at hkind
      cases hkind
  | client spec => exact Or.inl (closing_step hk hphase h)

/-- A session that has reported its end stays so, and reports no connection. -/
lemma reported_step (hs : s.Reported) (h : s.step C ownId memory l = some (s', memory', outs)) :
    s'.Reported ∧ Out.status .connected ∉ outs := by
  rcases hs with hphase | ⟨hphase, hkind⟩
  · exact ⟨Or.inl (ended_step hphase h), not_connected_of_over (by rw [hphase]; trivial) h⟩
  · exact ⟨reported_of_closing hphase hkind h,
      not_connected_of_over (by rw [hphase]; trivial) h⟩

/-! ## Texts that are lost -/

/-- **A text that is lost is reported**: a step of a session that is not cancelled clears the
pending text, or keeps the texts it holds, or serves a new connection of the peer while its pump
writes one.

**Proof sketch.** The clip channel goes only with the task, which reports that it is idle, and the
writer's text only with the pump. A pump that ends by itself reports that the peer is gone; a new
connection ends it with no report. -/
theorem kept_of_step (hcancelled : s.cancelled = false) (hs : ¬ s.Reported)
    (h : s.step C ownId memory l = some (s', memory', outs)) :
    (∃ e : NetEvent, .event e ∈ outs ∧ e.clears = true) ∨ (∀ text ∈ s.texts, text ∈ s'.texts) ∨
      ∃ next, l = .incoming next ∧ memory.claim.serveable next.remoteId false = true ∧
        ∀ text ∈ s.texts, text ∈ s'.texts ∨ s.writing = some text := by
  have htells := reported_of_step hcancelled hs h
  have hidle : ∀ pre, outs = pre ++ [.status .idle] →
      ∃ e : NetEvent, .event e ∈ outs ∧ e.clears = true := by
    rintro pre rfl
    exact ⟨.status .idle, List.mem_append_right _ (List.mem_singleton_self _), rfl⟩
  -- without a pump only the clip channel holds texts
  have hquiet : s.phase.NoPump → s'.clip = s.clip → ∀ text ∈ s.texts, text ∈ s'.texts := by
    intro hno hclip text htext
    unfold texts at htext ⊢
    rw [writing_of_noPump hno] at htext
    rw [hclip]
    exact List.mem_append_right _ htext
  cases step_cases h with
  | stay _ _ _ _ _ phase clip =>
    refine Or.inr (Or.inl fun text htext => ?_)
    unfold texts writing at htext ⊢
    rwa [phase, clip]
  | move _ _ _ _ _ from_ _ clip => exact Or.inr (Or.inl (hquiet from_.noPump clip))
  | begin_ _ _ _ _ _ _ from_ _ clip => exact Or.inr (Or.inl (hquiet from_.noPump clip))
  | goOn _ _ _ _ _ _ _ _ from_ _ _ clip =>
    exact Or.inr (Or.inl (hquiet (by rw [from_]; trivial) clip))
  | paired _ _ _ _ _ _ _ _ _ _ from_ _ _ _ _ _ clip =>
    exact Or.inr (Or.inl (hquiet (by rw [from_]; trivial) clip))
  | trades _ _ _ _ _ _ _ _ _ _ from_ _ _ _ clip =>
    exact Or.inr (Or.inl (hquiet (by rw [from_]; trivial) clip))
  | pumps l conn hist p p' clip' out _ _ from_ step _ phase clip =>
    have hbefore : s.texts = p.writer.text?.toList ++ s.clip.queue := by
      rw [texts, writing_of_pumping from_]
    have hafter : s'.texts = p'.writer.text?.toList ++ clip'.queue := by
      rw [texts, writing_of_pumping phase, clip]
    rw [hbefore, hafter]
    cases Pump.step_cases step with
    | pulled hw => exact Or.inr (Or.inl fun text htext => by simpa [Writer.text?, hw] using htext)
    | sent text ms hw => exact Or.inl ⟨.itemSent, by simp [pumpOut], rfl⟩
    | resent text ms hw =>
      exact Or.inr (Or.inl fun text htext => by simpa [Writer.text?, hw] using htext)
    | took text rest ms hw hq =>
      exact Or.inr (Or.inl fun text htext => by simpa [Writer.text?, hw, hq] using htext)
    | refused text rest ms e hw hq => exact Or.inl ⟨.error (notSent e), by simp [pumpOut], rfl⟩
    | skipped pulls hw => exact Or.inr (Or.inl fun text htext => htext)
    | answered text ms pulls hw =>
      exact Or.inr (Or.inl fun text htext => by simpa [Writer.text?, hw] using htext)
    | nudged => exact Or.inr (Or.inl fun text htext => htext)
    | received => exact Or.inr (Or.inl fun text htext => htext)
  | unpaired _ _ _ _ _ _ _ _ _ _ _ _ _ _ gone => exact Or.inl ⟨.peerDisconnected, gone, rfl⟩
  | exhausted => exact Or.inl ⟨.peerDisconnected, by simp, rfl⟩
  | stops _ _ _ _ _ _ _ cancelled =>
    rw [hcancelled] at cancelled
    cases cancelled
  | preempts conn next hist p _ _ from_ _ _ serveable _ clip =>
    refine Or.inr (Or.inr ⟨next, rfl, serveable, fun text htext => ?_⟩)
    unfold texts at htext ⊢
    rw [clip]
    rcases List.mem_append.1 htext with hw | hq
    · exact Or.inr (Option.mem_toList.1 hw)
    · exact Or.inl (List.mem_append_right _ hq)
  | receives _ _ _ _ _ from_ _ clip =>
    exact Or.inr (Or.inl (hquiet (by rw [from_]; trivial) clip))
  | closes _ _ _ _ _ from_ _ clip => exact Or.inr (Or.inl (hquiet from_ clip))
  | givesUp => exact Or.inl ⟨.status .idle, by simp [Out.status], rfl⟩
  | returns =>
    rcases htells with hnot | ⟨pre, hpre⟩
    · exact absurd (Or.inl rfl) hnot
    · exact Or.inl (hidle pre hpre)
  | returnsIdle _ os => exact Or.inl (hidle os rfl)

end Session

/-! ## A loop that goes on -/

namespace Runtime

variable {C : Crypto} {ownId : EndpointId} {r r' : Runtime} {l : RuntimeLabel}
  {outs : List RuntimeOut}

/-- The loop goes on: what it waits with is a command that ends or starts a session, and the session
at hand is not cancelled. -/
structure Steady (r : Runtime) : Prop where
  exclusive : r.Exclusive
  goes : r.loop ≠ .ended
  stopping : ∀ s cmd, r.loop = .stopping s cmd → cmd.isStop = true ∨ cmd.kind?.isSome
  running : ∀ s, r.session = some s → s.cancelled = false

/-- What a loop that goes on can do. It is the inversion rule of the runtime without the end of the
loop, and with what the clip channel keeps. -/
inductive Serves (C : Crypto) (ownId : EndpointId) (r : Runtime) :
    RuntimeLabel → Runtime → List RuntimeOut → Prop where
  /-- Its task moves. -/
  | own (l : SessionLabel) (s s' : Session) (memory memory' : SessionMemory) (outs : List Out)
      (task : r.task = some s) (memory_eq : r.memory = some memory)
      (step : s.step C ownId memory l = some (s', memory', outs)) :
      Serves C ownId r (.own l) (r.withTask s' memory') (outs.map (.out s.sid))
  /-- A command is done at once. -/
  | asked (cmd : UiCommand) (paths : List String) (s s' : Session) (idle : r.loop = .receiving)
      (session : r.session = some s) (same : Session.Same s s') (phase : s'.phase = s.phase)
      (clip : s.clip.queue <+: s'.clip.queue) :
      Serves C ownId r (.command cmd paths) { r with session := some s' } []
  | answered (cmd : UiCommand) (paths : List String) (e : NetEvent) (idle : r.loop = .receiving)
      (kind : (∃ message, e = .error message) ∨ ∃ paths, e = .connPath paths) :
      Serves C ownId r (.command cmd paths) r [.event e]
  /-- The task is cancelled for a command that ends or starts a session. -/
  | cancels (cmd : UiCommand) (paths : List String) (s : Session) (idle : r.loop = .receiving)
      (session : r.session = some s) (for_ : cmd.isStop = true ∨ cmd.kind?.isSome) :
      Serves C ownId r (.command cmd paths)
        { r with loop := .stopping { s with cancelled := true } cmd, session := none } []
  /-- With no task left, a session starts, or the memory is forgotten. -/
  | starts (l : RuntimeLabel) (kind : SessionKind) (gone : r.session = none) :
      Serves C ownId r l (r.startSession kind).1 (r.startSession kind).2
  | forgets (l : RuntimeLabel) (gone : r.session = none) :
      Serves C ownId r l { r with loop := .receiving, memory := none }
        [.forgot, .event (.status .idle)]

/-- A command that ends or starts a session does so once no task is left.

**Proof sketch.** By the command; those that neither end nor start a session are excluded. -/
lemma serves_of_settle {cmd : UiCommand} (hcmd : cmd.isStop = true ∨ cmd.kind?.isSome)
    (hgone : r.session = none) (h : r.settle cmd = (r', outs)) : Serves C ownId r l r' outs := by
  cases cmd with
  | startServer mode =>
    obtain ⟨rfl, rfl⟩ := Prod.mk.inj h
    exact .starts l (.server mode) hgone
  | connect spec =>
    obtain ⟨rfl, rfl⟩ := Prod.mk.inj h
    exact .starts l (.client spec) hgone
  | stopServer | disconnect =>
    obtain ⟨rfl, rfl⟩ := Prod.mk.inj h
    exact .forgets l hgone
  | shutdown | refreshPin | sendClipboard | queryConnPath =>
    simp [UiCommand.isStop, UiCommand.kind?] at hcmd

/-- A command that stops the session is one of the things that a loop that goes on can do. -/
lemma serves_of_stop {cmd : UiCommand} {paths : List String}
    (hcmd : cmd.isStop = true ∨ cmd.kind?.isSome)
    (hloop : r.loop = .receiving) (h : r.stopSession cmd = (r', outs)) :
    Serves C ownId r (.command cmd paths) r' outs := by
  unfold stopSession at h
  split at h
  · rename_i s hs
    obtain ⟨rfl, rfl⟩ := Prod.mk.inj h
    exact .cancels cmd paths s hloop hs hcmd
  · rename_i hs
    exact serves_of_settle hcmd hs h

/-- **The inversion rule of a loop that goes on.**

**Proof sketch.** By the label and the state of the loop. Without a command to shut down, the loop
receives or it stops a session. -/
theorem serves_of_step (hr : r.Steady) (hgoes : UiCommand.shutdown ∉ l.taken)
    (h : r.step C ownId l = some (r', outs)) : Serves C ownId r l r' outs := by
  cases l with
  | own a =>
    obtain ⟨s, s', memory, memory', os, hs, hm, hstep, rfl, rfl⟩ := own_cases h
    exact .own a s s' memory memory' os hs hm hstep
  | command cmd paths =>
    simp only [step] at h
    split at h
    · rename_i hloop
      have hcmd : r.command cmd paths = (r', outs) := Option.some.inj h
      cases cmd with
      | startServer mode => exact serves_of_stop (Or.inr rfl) hloop hcmd
      | connect spec => exact serves_of_stop (Or.inr rfl) hloop hcmd
      | stopServer => exact serves_of_stop (Or.inl rfl) hloop hcmd
      | disconnect => exact serves_of_stop (Or.inl rfl) hloop hcmd
      | shutdown => exact absurd (List.mem_singleton_self _) hgoes
      | refreshPin =>
        simp only [command, refreshPin] at hcmd
        split at hcmd
        · rename_i s hs
          split_ifs at hcmd
          · obtain ⟨rfl, rfl⟩ := Prod.mk.inj hcmd
            exact .asked _ paths s _ hloop hs ⟨rfl, rfl, rfl⟩ rfl (List.prefix_refl _)
          · obtain ⟨rfl, rfl⟩ := Prod.mk.inj hcmd
            exact .answered _ paths _ hloop (Or.inl ⟨_, rfl⟩)
        · obtain ⟨rfl, rfl⟩ := Prod.mk.inj hcmd
          exact .answered _ paths _ hloop (Or.inl ⟨_, rfl⟩)
      | sendClipboard text =>
        simp only [command, sendClipboard] at hcmd
        split at hcmd
        · rename_i s hs
          split_ifs at hcmd
          · obtain ⟨rfl, rfl⟩ := Prod.mk.inj hcmd
            exact .answered _ paths _ hloop (Or.inl ⟨_, rfl⟩)
          · obtain ⟨rfl, rfl⟩ := Prod.mk.inj hcmd
            exact .asked _ paths s _ hloop hs ⟨rfl, rfl, rfl⟩ rfl (List.prefix_append _ _)
        · obtain ⟨rfl, rfl⟩ := Prod.mk.inj hcmd
          exact .answered _ paths _ hloop (Or.inl ⟨_, rfl⟩)
      | queryConnPath =>
        obtain ⟨rfl, rfl⟩ := Prod.mk.inj hcmd
        exact .answered _ paths _ hloop (Or.inr ⟨_, rfl⟩)
    · cases h
  | joined =>
    simp only [step] at h
    split at h
    · rename_i s cmd hloop
      split_ifs at h
      exact serves_of_settle (hr.stopping s cmd hloop) (hr.exclusive s cmd hloop)
        (Option.some.inj h)
    · cases h
  | aborted =>
    simp only [step] at h
    split at h
    · rename_i s cmd hloop
      exact serves_of_settle (hr.stopping s cmd hloop) (hr.exclusive s cmd hloop)
        (Option.some.inj h)
    · cases h

/-- The place where the loop waits when its task has moved, and the task in it. -/
lemma withTask_cases (r : Runtime) (s : Session) (memory : SessionMemory) :
    (∃ old cmd, r.loop = .stopping old cmd ∧ (r.withTask s memory).loop = .stopping s cmd ∧
        (r.withTask s memory).session = r.session) ∨
      ((∀ old cmd, r.loop ≠ .stopping old cmd) ∧ (r.withTask s memory).loop = r.loop ∧
        (r.withTask s memory).session = some s) := by
  unfold withTask
  split
  · rename_i old cmd hloop
    exact Or.inl ⟨old, cmd, hloop, rfl, rfl⟩
  · rename_i hloop
    exact Or.inr ⟨hloop, rfl, rfl⟩

/-- A loop that goes on, and is told to end by no command, goes on.

**Proof sketch.** By the inversion rule. A loop that stops a session starts the next one when the
task has ended, and receives again. -/
lemma steady_of_step (hr : r.Steady) (hgoes : UiCommand.shutdown ∉ l.taken)
    (h : r.step C ownId l = some (r', outs)) : r'.Steady := by
  have hexclusive := exclusive_of_step hr.exclusive h
  cases serves_of_step hr hgoes h with
  | own a s s' memory memory' os htask hm hstep =>
    rcases withTask_cases r s' memory' with ⟨old, cmd, hloop, hloop', hsession'⟩ |
      ⟨hfree, hloop', hsession'⟩
    · refine ⟨hexclusive, by rw [hloop']; simp, fun s₁ cmd₁ h₁ => ?_, fun s₁ h₁ => ?_⟩
      · obtain ⟨-, rfl⟩ : s' = s₁ ∧ cmd = cmd₁ := by simpa [hloop'] using h₁
        exact hr.stopping old cmd hloop
      · rw [hsession', hr.exclusive old cmd hloop] at h₁
        cases h₁
    · refine ⟨hexclusive, by rw [hloop']; exact hr.goes, fun s₁ cmd₁ h₁ => ?_, fun s₁ h₁ => ?_⟩
      · exact absurd (hloop'.symm.trans h₁) (hfree s₁ cmd₁)
      · obtain rfl := Option.some.inj (hsession'.symm.trans h₁)
        have hsession : r.session = some s := by
          unfold task at htask
          split at htask
          · rename_i s₂ cmd₂ hloop
            exact absurd hloop (hfree s₂ cmd₂)
          · exact htask
        exact (Session.step_same hstep).cancelled.trans (hr.running s hsession)
  | asked cmd paths s s' hidle hsession hsame =>
    refine ⟨hexclusive, hr.goes, hr.stopping, fun s₁ h₁ => ?_⟩
    obtain rfl := Option.some.inj h₁
    exact hsame.cancelled.trans (hr.running s hsession)
  | answered => exact hr
  | cancels cmd paths s hidle hsession hcmd =>
    refine ⟨hexclusive, by simp, fun s₁ cmd₁ h₁ => ?_, fun s₁ h₁ => by cases h₁⟩
    obtain ⟨-, rfl⟩ : _ ∧ cmd = cmd₁ := by simpa using h₁
    exact hcmd
  | starts l kind =>
    refine ⟨hexclusive, by simp [startSession], fun s₁ cmd₁ h₁ => (by cases h₁), fun s₁ h₁ => ?_⟩
    obtain rfl := Option.some.inj h₁
    rfl
  | forgets l hgone =>
    refine ⟨hexclusive, by simp, fun s₁ cmd₁ h₁ => (by cases h₁), fun s₁ h₁ => ?_⟩
    cases hgone.symm.trans h₁

/-- The loop waits for a command, and its session, if it has one, has reported its end. -/
def Settled (r : Runtime) : Prop := r.loop = .receiving ∧ ∀ s, r.session = some s → s.Reported

/-- **A loop settles with an idle event**: a step after which it is settled follows one after which
it was, and puts out no event of a connection, or the last event it puts out is that of the end.

**Proof sketch.** By the inversion rule. A task that settles the loop reports that it is idle in the
same step, and a command that finds no task answers with that report. -/
lemma settled_of_step (hr : r.Steady) (hgoes : UiCommand.shutdown ∉ l.taken)
    (h : r.step C ownId l = some (r', outs)) (hs : r'.Settled) :
    (r.Settled ∧ ∀ e ∈ r.posts outs, e.event ≠ .status .connected) ∨
      ∃ pre e, r.posts outs = pre ++ [e] ∧ e.event = .status .idle := by
  cases serves_of_step hr hgoes h with
  | own a s s' memory memory' os htask hm hstep =>
    rcases withTask_cases r s' memory' with ⟨old, cmd, hloop, hloop', -⟩ | ⟨-, hloop', hsession'⟩
    · cases hloop'.symm.trans hs.1
    · have hidle : r.loop = .receiving := hloop'.symm.trans hs.1
      have hsession : r.session = some s := (task_of_receiving hidle).symm.trans htask
      by_cases hreported : s.Reported
      · refine Or.inl ⟨⟨hidle, fun s₁ h₁ => ?_⟩, fun e he hconn => ?_⟩
        · obtain rfl := Option.some.inj (hsession.symm.trans h₁)
          exact hreported
        · obtain ⟨-, -, -, hmem⟩ := mem_posts he
          rw [hconn] at hmem
          refine (Session.reported_step hreported hstep).2 ?_
          simpa [Out.status] using hmem
      · right
        rcases Session.reported_of_step (hr.running s hsession) hreported hstep with
          hnot | ⟨pre, rfl⟩
        · exact absurd (hs.2 s' hsession') hnot
        · refine ⟨r.posts (pre.map (.out s.sid)),
            ⟨.status .idle, r.sessions, r.peer, r.task.bind Session.writing⟩, ?_, rfl⟩
          simp only [posts, List.map_append, List.filterMap_append]
          rfl
  | asked cmd paths s s' hidle hsession hsame hphase =>
    refine Or.inl ⟨⟨hidle, fun s₁ h₁ => ?_⟩, by simp [posts]⟩
    obtain rfl := Option.some.inj (hsession.symm.trans h₁)
    have hreported : s'.Reported := hs.2 s' rfl
    unfold Session.Reported at hreported ⊢
    rwa [hphase, hsame.kind] at hreported
  | answered cmd paths e hidle hkind =>
    refine Or.inl ⟨hs, fun e' he' hconn => ?_⟩
    obtain ⟨-, -, -, ⟨sid, hmem⟩ | hmem⟩ := mem_posts he'
    · simp at hmem
    · obtain rfl : e'.event = e := by simpa using hmem
      rcases hkind with ⟨message, hkind⟩ | ⟨paths', hkind⟩
      · cases hconn.symm.trans hkind
      · cases hconn.symm.trans hkind
  | cancels => cases hs.1
  | starts l kind =>
    exact absurd (hs.2 _ rfl) (Session.not_reported_of_phase (by simp [Session.start])
      (by simp [Session.start]))
  | forgets => exact Or.inr ⟨[], _, rfl, rfl⟩

/-- A text that is taken for the session is on its clip channel, or there is nobody who would send
it.

**Proof sketch.** By the session: there is none, or it has returned, or it takes the text. -/
lemma text_taken {text : String} {paths : List String}
    (h : r.step C ownId (.command (.sendClipboard text) paths) = some (r', outs)) :
    (r'.loop = .receiving ∧ text ∈ r'.texts ∧ (r'.Settled → r.Settled)) ∨
      .event (.error notConnected) ∈ outs := by
  simp only [step] at h
  split at h
  · rename_i hloop
    have hcmd : r.sendClipboard text = (r', outs) := Option.some.inj h
    simp only [sendClipboard] at hcmd
    split at hcmd
    · rename_i s hs
      split_ifs at hcmd
      · obtain ⟨rfl, rfl⟩ := Prod.mk.inj hcmd
        exact Or.inr (List.mem_singleton_self _)
      · obtain ⟨rfl, rfl⟩ := Prod.mk.inj hcmd
        refine Or.inl ⟨hloop, ?_, fun hset => ⟨hloop, fun s₁ h₁ => ?_⟩⟩
        · unfold texts
          rw [task_of_receiving (by exact hloop)]
          exact List.mem_append_right _ (List.mem_append_right _ (List.mem_singleton_self _))
        · obtain rfl := Option.some.inj (hs.symm.trans h₁)
          have hreported := hset.2 _ rfl
          exact hreported
    · obtain ⟨rfl, rfl⟩ := Prod.mk.inj hcmd
      exact Or.inr (List.mem_singleton_self _)
  · cases h

/-- **What becomes of a text the running session holds**: it stays there, or an event clears it, or
a command ends the session, or the session loses it to a new connection or to another session.

**Proof sketch.** By the inversion rule. A task keeps a text, or it confirms it, or it ends and says
so. Otherwise the text is lost to a connection that takes the place of the pumped one, or to a
command. -/
lemma text_held (hr : r.Steady) (hgoes : UiCommand.shutdown ∉ l.taken)
    (h : r.step C ownId l = some (r', outs)) (hidle : r.loop = .receiving) (hs : ¬ r.Settled)
    {text : String} (htext : text ∈ r.texts) :
    (∃ e ∈ r.posts outs, e.event.clears = true) ∨
      (r'.loop = .receiving ∧ text ∈ r'.texts ∧ ¬ r'.Settled) ∨
      (∃ s cmd, r'.loop = .stopping s cmd ∧ cmd.isStop = true) ∨
      (∃ next s memory, l = .own (.incoming next) ∧ r.task = some s ∧ r.memory = some memory ∧
        memory.claim.serveable next.remoteId false = true ∧ s.writing = some text) ∨
      ∃ cmd paths, l = .command cmd paths ∧ cmd.kind?.isSome := by
  obtain ⟨s, hsession⟩ : ∃ s, r.session = some s := by
    by_contra hnone
    exact hs ⟨hidle, fun s h => absurd ⟨s, h⟩ hnone⟩
  have htask : r.task = some s := (task_of_receiving hidle).trans hsession
  have hreported : ¬ s.Reported := fun h => hs ⟨hidle, fun s₁ h₁ => by
    obtain rfl := Option.some.inj (hsession.symm.trans h₁)
    exact h⟩
  rw [texts_of_task htask] at htext
  have hposts : (∃ pre e, r.posts outs = pre ++ [e] ∧ e.event = .status .idle) →
      ∃ e ∈ r.posts outs, e.event.clears = true := by
    rintro ⟨pre, e, hpre, he⟩
    exact ⟨e, by rw [hpre]; simp, by rw [he]; rfl⟩
  cases serves_of_step hr hgoes h with
  | own a s₁ s' memory memory' os htask₁ hm hstep =>
    obtain rfl := Option.some.inj (htask.symm.trans htask₁)
    rcases withTask_cases r s' memory' with ⟨old, cmd, hloop, -⟩ | ⟨-, hloop', hsession'⟩
    · cases hidle.symm.trans hloop
    · by_cases hset : (r.withTask s' memory').Settled
      · rcases settled_of_step hr hgoes h hset with ⟨hs', -⟩ | hidle'
        · exact absurd hs' hs
        · exact Or.inl (hposts hidle')
      have hkeep : text ∈ s'.texts → (r.withTask s' memory').loop = .receiving ∧
          text ∈ (r.withTask s' memory').texts ∧ ¬ (r.withTask s' memory').Settled := fun hmem =>
        ⟨hloop'.trans hidle, by rwa [texts_of_task (withTask_task r s' memory').1], hset⟩
      rcases Session.kept_of_step (hr.running s hsession) hreported hstep with
        ⟨e, he, hclears⟩ | hkept | ⟨next, rfl, hserve, hkept⟩
      · refine Or.inl ⟨⟨e, _, _, _⟩, List.mem_filterMap.2 ⟨.out s.sid (.event e), ?_, rfl⟩, hclears⟩
        exact List.mem_map_of_mem he
      · exact Or.inr (Or.inl (hkeep (hkept text htext)))
      · rcases hkept text htext with hmem | hwriting
        · exact Or.inr (Or.inl (hkeep hmem))
        · exact Or.inr
            (Or.inr (Or.inr (Or.inl ⟨next, s, memory, rfl, htask, hm, hserve, hwriting⟩)))
  | asked cmd paths s₁ s' _ hsession₁ hsame hphase hclip =>
    obtain rfl := Option.some.inj (hsession.symm.trans hsession₁)
    refine Or.inr (Or.inl ⟨hidle, ?_, fun hset => hreported ?_⟩)
    · unfold texts
      rw [task_of_receiving (by exact hidle)]
      show text ∈ s'.texts
      unfold Session.texts Session.writing at htext ⊢
      rw [hphase]
      rcases List.mem_append.1 htext with hw | hq
      · exact List.mem_append_left _ hw
      · exact List.mem_append_right _ (hclip.subset hq)
    · have hreported' : s'.Reported := hset.2 s' rfl
      unfold Session.Reported at hreported' ⊢
      rwa [hphase, hsame.kind] at hreported'
  | answered => exact Or.inr (Or.inl ⟨hidle, by rwa [texts_of_task htask], hs⟩)
  | cancels cmd paths s₁ _ _ hcmd =>
    rcases hcmd with hstop | hstart
    · exact Or.inr (Or.inr (Or.inl ⟨_, cmd, rfl, hstop⟩))
    · exact Or.inr (Or.inr (Or.inr (Or.inr ⟨cmd, paths, rfl, hstart⟩)))
  | starts l kind hgone => cases hgone.symm.trans hsession
  | forgets l hgone => cases hgone.symm.trans hsession

end Runtime

namespace App

variable {τ : Type} {a a' : App τ} {cmds : List UiCommand}

/-- An event that clears the pending text leaves none. -/
lemma applyEvent_clears {now : τ} {e : NetEvent} (h : e.clears = true) :
    (a.applyEvent now e).pendingOutbox = none := by
  cases e with
  | status status => cases status <;> first | rfl | cases h
  | itemSent =>
    simp only [applyEvent]
    split
    · rfl
    · assumption
  | peerDisconnected => rfl
  | error message => rfl
  | _ => cases h

/-- Only status events change the status.

**Proof sketch.** By the event; none of the others touches the status. -/
lemma applyEvent_status (a : App τ) (now : τ) (e : NetEvent) :
    (∃ status, e = .status status ∧ (a.applyEvent now e).status = status) ∨
      (a.applyEvent now e).status = a.status := by
  cases e with
  | status status => exact Or.inl ⟨status, rfl, by cases status <;> rfl⟩
  | peerCardReceived card =>
    simp only [applyEvent]
    split <;> exact Or.inr rfl
  | itemReceived text pulled =>
    simp only [applyEvent]
    split_ifs <;> exact Or.inr rfl
  | itemSent =>
    simp only [applyEvent]
    split <;> exact Or.inr rfl
  | _ => exact Or.inr rfl

/-- No action changes the status. -/
lemma Acted.status (h : Acted a a' cmds) : a'.status = a.status := by
  cases h with
  | quiet _ _ _ status => exact status
  | sends => rfl
  | setsUp _ _ _ _ _ _ status => exact status
  | connects _ _ _ _ _ _ _ status => exact status
  | disowns _ _ status => exact status

/-- No action ends the loop. -/
lemma Acted.goes (h : Acted a a' cmds) : UiCommand.shutdown ∉ cmds := by
  have hstart : ∀ {cmd : UiCommand} {kind : SessionKind}, cmd.kind? = some kind →
      UiCommand.shutdown ∉ [cmd] := by
    intro cmd kind hkind hmem
    rw [← List.mem_singleton.1 hmem] at hkind
    cases hkind
  cases h with
  | quiet _ _ _ _ _ plain => exact fun hmem => (plain _ hmem).2.2 rfl
  | sends => simp
  | setsUp _ _ _ starts => exact hstart starts
  | connects _ _ _ _ starts => exact hstart starts
  | disowns => simp

end App

namespace System

variable {τ : Type} {C : Crypto} {ownId : EndpointId} {c : Launch} {sys sys' : System τ}
  {l : SystemLabel τ}

/-! ## The pending text -/

/-- An event that clears the pending text waits to be drained. -/
def Clearing (sys : System τ) : Prop := ∃ e ∈ sys.events, e.event.clears = true

/-- The application does not show a connection, and will not show one before an idle event is
drained, nor after it. -/
def Quieted (sys : System τ) : Prop :=
  (sys.app.status ≠ .connected ∧ ∀ e ∈ sys.events, e.event ≠ .status .connected) ∨
    ∃ pre e post, sys.events = pre ++ e :: post ∧ e.event = .status .idle ∧
      ∀ e' ∈ post, e'.event ≠ .status .connected

/-- The loop is carrying out a command that ends the session. -/
def Stopping (sys : System τ) : Prop :=
  ∃ s cmd, sys.runtime.loop = .stopping s cmd ∧ cmd.isStop = true

/-- A step that takes a text from the session that holds it: a new connection of the peer supersedes
the one it is being written to, or a command starts another session. -/
def Drops (sys : System τ) (text : String) : SystemLabel τ → Prop
  | .net (.own (.incoming next)) => ∃ s memory, sys.runtime.task = some s ∧
      sys.runtime.memory = some memory ∧ memory.claim.serveable next.remoteId false = true ∧
        s.writing = some text
  | .net (.command cmd _) => cmd.kind?.isSome ∧ text ∈ sys.runtime.texts
  | _ => False

/-- The pending text is taken from a session only when it is about to be cleared. -/
def KeepsPending (sys : System τ) (l : SystemLabel τ) : Prop :=
  ∀ text, sys.app.pendingOutbox = some text → sys.Drops text l → sys.Clearing

/-- What holds of a pending text: it is about to be cleared, or it is on its way to or in a session
that goes on, or its session is being ended. -/
structure Released (sys : System τ) : Prop where
  steady : sys.runtime.Steady
  goes : UiCommand.shutdown ∉ sys.commands
  quieted : sys.runtime.Settled → sys.Quieted
  pending : ∀ text, sys.app.pendingOutbox = some text → sys.Clearing ∨
    (¬ sys.runtime.Settled ∧ (text ∈ sys.commands.filterMap UiCommand.text? ∨
      (sys.runtime.loop = .receiving ∧ text ∈ sys.runtime.texts))) ∨ sys.Stopping

/-- In a system that has just begun, nothing is pending. -/
lemma released_init (c : Launch) : (init c : System τ).Released where
  steady := by
    refine ⟨fun _ _ h => ?_, Loop.noConfusion, fun _ _ h => ?_, fun _ h => ?_⟩
    · cases h
    · cases h
    · cases h
  goes := List.not_mem_nil
  quieted _ := Or.inl ⟨by simp [init, Launch.app, App.init], fun e he => by cases he⟩
  pending text h := by cases h

/-- When no connection will be shown but one is shown now, an idle event waits. -/
lemma Quieted.clearing (h : sys.Quieted) (hconn : sys.app.status = .connected) : sys.Clearing := by
  rcases h with ⟨hnot, -⟩ | ⟨pre, e, post, hevents, hidle, -⟩
  · exact absurd hconn hnot
  · exact ⟨e, by rw [hevents]; simp, by rw [hidle]; rfl⟩

/-- Draining an event shows no connection that was not to be shown.

**Proof sketch.** If no connection is to be shown, this event shows none. If it is to be shown until
an idle event, that one is this event or comes later. -/
lemma Quieted.drain (h : sys.Quieted) {now : τ} {e : Posted} {rest : List Posted}
    (hevents : sys.events = e :: rest) : (sys.afterDrain now e rest).Quieted := by
  have hstatus := App.applyEvent_status sys.app ⟨now, e.peer⟩ e.event
  rcases h with ⟨hnot, hall⟩ | ⟨pre, e₁, post, hsplit, hidle, hall⟩
  · rw [hevents] at hall
    refine Or.inl ⟨fun hconn => ?_, fun e' he' => hall e' (List.mem_cons_of_mem _ he')⟩
    have hconn' : (sys.app.applyEvent ⟨now, e.peer⟩ e.event).status = .connected := hconn
    rcases hstatus with ⟨status, he, hs⟩ | hs
    · refine hall e List.mem_cons_self ?_
      rw [he, ← hs, hconn']
    · exact hnot (hs.symm.trans hconn')
  · cases pre with
    | nil =>
      -- the idle event itself is drained
      obtain ⟨rfl, rfl⟩ : e = e₁ ∧ rest = post := by simpa [hevents] using hsplit
      refine Or.inl ⟨fun hconn => ?_, hall⟩
      have hconn' : (sys.app.applyEvent ⟨now, e.peer⟩ e.event).status = .connected := hconn
      rw [hidle] at hconn'
      cases hconn'
    | cons e₂ pre =>
      obtain ⟨rfl, rfl⟩ : e = e₂ ∧ rest = pre ++ e₁ :: post := by simpa [hevents] using hsplit
      exact Or.inr ⟨pre, e₁, post, rfl, hidle, hall⟩

/-- What the runtime puts out is put behind what waits. -/
lemma Clearing.run (h : sys.Clearing) (rest : List UiCommand) (r : Runtime)
    (outs : List RuntimeOut) :
    (sys.afterRun rest r outs).Clearing := by
  obtain ⟨e, he, hclears⟩ := h
  exact ⟨e, List.mem_append_left _ he, hclears⟩

/-- An action keeps what holds of the pending text.

**Proof sketch.** An action sends a text to the queue, or leaves the texts and the queue as they are
and appends to it. -/
lemma released_afterAct (h : sys.Released) {app : App (Stamp τ)} {cmds : List UiCommand}
    (acted : sys.app.Acted app cmds) : (sys.afterAct app cmds).Released := by
  refine ⟨h.steady, ?_, fun hs => ?_, fun text htext => ?_⟩
  · exact fun hmem => (List.mem_append.1 hmem).elim h.goes acted.goes
  · rcases h.quieted hs with ⟨hnot, hall⟩ | hlast
    · exact Or.inl ⟨by rwa [← acted.status] at hnot, hall⟩
    · exact Or.inr hlast
  · have hqueue : ∀ text, text ∈ sys.commands.filterMap UiCommand.text? →
        text ∈ (sys.afterAct app cmds).commands.filterMap UiCommand.text? := by
      intro text hmem
      rw [afterAct, List.filterMap_append]
      exact List.mem_append_left _ hmem
    have hkept : app.pendingOutbox = sys.app.pendingOutbox → sys.Clearing ∨
        (¬ sys.runtime.Settled ∧
          (text ∈ (sys.afterAct app cmds).commands.filterMap UiCommand.text? ∨
            (sys.runtime.loop = .receiving ∧ text ∈ sys.runtime.texts))) ∨ sys.Stopping := by
      intro hsame
      exact (h.pending text (hsame ▸ htext)).imp id
        (Or.imp (And.imp id (Or.imp (hqueue text) id)) id)
    cases acted with
    | quiet _ _ _ _ boxes => exact hkept boxes.pendingOutbox
    | sends text' connected =>
      by_cases hs : sys.runtime.Settled
      · exact Or.inl ((h.quieted hs).clearing connected)
      · obtain rfl : text' = text := Option.some.inj htext
        refine Or.inr (Or.inl ⟨hs, Or.inl ?_⟩)
        simp [afterAct, UiCommand.text?]
    | setsUp _ _ _ _ _ _ _ boxes => exact hkept boxes.pendingOutbox
    | connects _ _ _ _ _ _ _ _ _ boxes =>
      rcases boxes with boxes | ⟨-, boxes⟩
      · exact hkept boxes.pendingOutbox
      · cases boxes.pendingOutbox.symm.trans htext
    | disowns _ _ _ _ boxes => cases boxes.pendingOutbox.symm.trans htext

/-- Draining an event keeps what holds of the pending text.

**Proof sketch.** If the event clears the pending text, there is none any more. If not, the text is
where it was, and an event that will clear it is not this one. -/
lemma released_afterDrain (h : sys.Released) {now : τ} {e : Posted} {rest : List Posted}
    (hevents : sys.events = e :: rest) : (sys.afterDrain now e rest).Released := by
  refine ⟨h.steady, h.goes, fun hs => (h.quieted hs).drain hevents, fun text htext => ?_⟩
  have htext' : (sys.app.applyEvent ⟨now, e.peer⟩ e.event).pendingOutbox = some text := htext
  by_cases hclears : e.event.clears = true
  · rw [App.applyEvent_clears hclears] at htext'
    cases htext'
  · have hsame : sys.app.pendingOutbox = some text := by
      rcases App.applyEvent_pendingOutbox sys.app ⟨now, e.peer⟩ e.event with hp | hp
      · exact hp.symm.trans htext'
      · cases hp.symm.trans htext'
    rcases h.pending text hsame with ⟨e', he', hc⟩ | hrest
    · rw [hevents] at he'
      rcases List.mem_cons.1 he' with rfl | he'
      · exact absurd hc hclears
      · exact Or.inl ⟨e', he', hc⟩
    · exact Or.inr hrest

/-- A step of the runtime keeps what holds of the pending text, if it does not take it from its
session.

**Proof sketch.** By what becomes of a text at a step of the runtime. The ways in which a text is
lost are those that the condition rules out, or they clear the pending text, or they stop the
session. -/
lemma released_afterRun (h : sys.Released) {l : RuntimeLabel} (hkeeps : sys.KeepsPending (.net l))
    {rest : List UiCommand} {r : Runtime} {outs : List RuntimeOut}
    (hcommands : sys.commands = l.taken ++ rest)
    (hstep : sys.runtime.step C ownId l = some (r, outs)) :
      (sys.afterRun rest r outs).Released := by
  have hgoes : UiCommand.shutdown ∉ l.taken := fun hmem =>
    h.goes (by rw [hcommands]; exact List.mem_append_left _ hmem)
  have hsettled := Runtime.settled_of_step h.steady hgoes hstep
  -- an idle event that settles the loop clears the pending text
  have hposts : (∃ e ∈ sys.runtime.posts outs, e.event.clears = true) →
      (sys.afterRun rest r outs).Clearing := fun ⟨e, he, hclears⟩ =>
    ⟨e, List.mem_append_right _ he, hclears⟩
  have hidle : (∃ pre e, sys.runtime.posts outs = pre ++ [e] ∧ e.event = .status .idle) →
      (sys.afterRun rest r outs).Clearing := fun ⟨pre, e, hpre, he⟩ =>
    hposts ⟨e, by rw [hpre]; simp, by rw [he]; rfl⟩
  refine ⟨Runtime.steady_of_step h.steady hgoes hstep, ?_, fun hs => ?_, fun text htext => ?_⟩
  · exact fun hmem => h.goes (by rw [hcommands]; exact List.mem_append_right _ hmem)
  · rcases hsettled hs with ⟨hbefore, hnot⟩ | ⟨pre, e, hpre, he⟩
    · rcases h.quieted hbefore with ⟨hstatus, hall⟩ | ⟨pre, e, post, hevents, he, hall⟩
      · exact Or.inl ⟨hstatus, fun e' he' => (List.mem_append.1 he').elim (hall e') (hnot e')⟩
      · refine Or.inr ⟨pre, e, post ++ sys.runtime.posts outs, ?_, he, fun e' he' =>
          (List.mem_append.1 he').elim (hall e') (hnot e')⟩
        show sys.events ++ _ = _
        rw [hevents, List.append_assoc]
        rfl
    · refine Or.inr ⟨sys.events ++ pre, e, [], ?_, he, fun e' he' => by cases he'⟩
      show sys.events ++ _ = _
      rw [hpre, List.append_assoc]
  · rcases h.pending text htext with hclearing | ⟨hbefore, hway⟩ | ⟨s, cmd, hloop, hstop⟩
    · exact Or.inl (hclearing.run rest r outs)
    · have hset : r.Settled → (sys.afterRun rest r outs).Clearing := fun hs =>
        (hsettled hs).elim (fun h => absurd h.1 hbefore) hidle
      by_cases hs : r.Settled
      · exact Or.inl (hset hs)
      rcases hway with hqueued | ⟨hreceiving, hheld⟩
      · rw [hcommands, List.filterMap_append] at hqueued
        rcases List.mem_append.1 hqueued with htaken | hrest
        · -- the text is taken off the queue
          cases l with
          | command cmd paths =>
            obtain ⟨cmd', hcmd', htext'⟩ := List.mem_filterMap.1 htaken
            obtain rfl := List.mem_singleton.1 hcmd'
            cases cmd' with
            | sendClipboard text' =>
              obtain rfl : text' = text := Option.some.inj htext'
              rcases Runtime.text_taken hstep with ⟨hloop, hmem, -⟩ | hout
              · exact Or.inr (Or.inl ⟨hs, Or.inr ⟨hloop, hmem⟩⟩)
              · obtain ⟨p, hp, he⟩ := Runtime.exists_posts (r := sys.runtime) hout
                exact Or.inl (hposts ⟨p, hp, by rw [he]; rfl⟩)
            | _ => cases htext'
          | _ => cases htaken
        · exact Or.inr (Or.inl ⟨hs, Or.inl hrest⟩)
      · rcases Runtime.text_held h.steady hgoes hstep hreceiving hbefore hheld with
          hclears | ⟨hloop, hmem, -⟩ | hstopping | ⟨next, s, memory, rfl, hdrops⟩ |
          ⟨cmd, paths, rfl, hstart⟩
        · exact Or.inl (hposts hclears)
        · exact Or.inr (Or.inl ⟨hs, Or.inr ⟨hloop, hmem⟩⟩)
        · exact Or.inr (Or.inr hstopping)
        · exact Or.inl ((hkeeps text htext ⟨s, memory, hdrops⟩).run rest r outs)
        · exact Or.inl ((hkeeps text htext ⟨hstart, hheld⟩).run rest r outs)
    · rcases Runtime.stopping_step hloop hstop hstep with ⟨s', hloop'⟩ | hout
      · exact Or.inr (Or.inr ⟨s', cmd, hloop', hstop⟩)
      · obtain ⟨p, hp, he⟩ := Runtime.exists_posts (r := sys.runtime) hout
        exact Or.inl (hposts ⟨p, hp, by rw [he]; rfl⟩)

/-- **Every step that does not take the pending text from its session keeps it on its way, or about
to be cleared.** -/
lemma released_of_step (h : sys.Released) (hkeeps : sys.KeepsPending l)
    (hstep : sys.step C ownId l = some sys') : sys'.Released := by
  cases step_cases hstep with
  | acts w u app cmds act acted => exact released_afterAct h acted
  | drains now e rest events => exact released_afterDrain h events
  | runs l rest r outs commands step => exact released_afterRun h hkeeps commands step

/-- **A pending text never wedges**: it is in the command queue, in the clip channel or being
written, or an event that clears it waits to be drained or will be put out by the command that is
being carried out. So when all is drained the next text can be sent. This holds in every run in
which no step takes the pending text from its session.

**Proof sketch.** The invariant says where a pending text is. With both queues empty and no text in
the runtime there is none of these places left, so that the box is free and takes the next text. -/
theorem pending_never_wedges {labels : List (SystemLabel τ)} (hrun : Ran C ownId c labels sys)
    (hmeets : Machine.Meets (step C ownId) KeepsPending (init c) labels) :
    (∀ text, sys.app.pendingOutbox = some text →
      text ∈ sys.commands.filterMap UiCommand.text? ∨ text ∈ sys.runtime.texts ∨ sys.Clearing ∨
        sys.Stopping) ∧
    (sys.Drained → sys.runtime.texts = [] → ∀ text, text ≠ "" →
      sys.app.sendText text =
        ({ sys.app with pendingOutbox := some text }, [.sendClipboard text])) := by
  have hI : sys.Released := Machine.exec_invariant (fun _ _ _ h hk hs => released_of_step h hk hs)
    (released_init c) hmeets hrun
  have hway : ∀ text, sys.app.pendingOutbox = some text →
      text ∈ sys.commands.filterMap UiCommand.text? ∨ text ∈ sys.runtime.texts ∨ sys.Clearing ∨
        sys.Stopping := by
    intro text htext
    rcases hI.pending text htext with h | ⟨-, h | ⟨-, h⟩⟩ | h
    · exact Or.inr (Or.inr (Or.inl h))
    · exact Or.inl h
    · exact Or.inr (Or.inl h)
    · exact Or.inr (Or.inr (Or.inr h))
  refine ⟨hway, fun hd hnone text hne => ?_⟩
  have hfree : sys.app.pendingOutbox = none := by
    cases hp : sys.app.pendingOutbox with
    | none => rfl
    | some text =>
      rcases hway text hp with h | h | ⟨e, he, -⟩ | ⟨s, cmd, hloop, -⟩
      · rw [hd.commands] at h
        cases h
      · rw [hnone] at h
        cases h
      · rw [hd.events] at he
        cases he
      · cases hd.idle.symm.trans hloop
  unfold App.sendText
  rw [if_neg (by simp [hne, hfree])]

section Sample

open Sample TimedSession

/-- Primitives under which the second peer's signature checks. -/
def hosted : Crypto :=
  { plain with
    parseKey := fun s => if s = otherKey.toHex then some otherKey else none
    verifyAuthSignature := fun key _ proof =>
      if key = otherKey ∧ proof = "sig-d" then .ok () else .error (.msg "Invalid signature") }

/-- The command that hosts for the second peer. -/
def hostPeer : UiCommand :=
  .startServer (.key ⟨⟨middleKey⟩, middleCard, twoPeers.peers, defaultRelays⟩ otherKey .lanOnly)

/-- The second peer connects, and proves its key. It does so on a connection of its own, and gets
through to the pump. -/
def welcomes (conn : Conn) : List (SystemLabel ℕ) :=
  [.incoming conn,
    .auth (.io ⟨.sessionStream, .ok ()⟩) none,
    .auth (.io ⟨.read MAX_CONTROL_MESSAGE_SIZE,
      .ok (AuthRequest.keyRequest otherKey.toHex "nonce-d").toFrame⟩) none,
    .auth (.policy 0) none,
    .auth (.io ⟨.randomNonce, "nonce-l"⟩) none,
    .auth (.io ⟨.signAuth (KeyAuth.authTranscript "listener" otherKey middleKey "nonce-d" "nonce-l"
      conn.remoteId.toString joinerId.toString), "sig-l"⟩) none,
    .auth (.io ⟨.write (KeyChallenge.new middleKey.toHex "nonce-l" "sig-l").toFrame, .ok ()⟩) none,
    .auth (.io ⟨.read MAX_CONTROL_MESSAGE_SIZE, .ok (KeyProof.new "sig-d").toFrame⟩) none,
    .auth (.policy 0) none,
    .auth (.io ⟨.write AuthResponse.accept.toFrame, .ok ()⟩) none,
    .pump .written].map fun l => .net (.own l)

/-- The user connects to the second peer, who connects. -/
def hosts : List (SystemLabel ℕ) :=
  connectsTo otherKey ++ [.net (.command hostPeer []), .net (.own (.begin 0)),
    .net (.own (.bound (.ok ())))] ++ welcomes ⟨0, hostId⟩ ++ drains 6

/-- The user sends a text, and while it is being written the peer connects anew. -/
def preempts : List (SystemLabel ℕ) :=
  hosts ++ [sends "text", .net (.command (.sendClipboard "text") []),
    .net (.own (.pump (.takeItem 0)))] ++ welcomes ⟨1, hostId⟩ ++ drains 3

/-- Whether a step takes a text from the session that holds it. The peer connects anew while its
text is being written, or a session is started over one that holds it. -/
def drops (sys : System ℕ) (text : String) : SystemLabel ℕ → Bool
  | .net (.own (.incoming next)) =>
    (sys.runtime.task.any fun s => s.writing == some text) &&
      sys.runtime.memory.any fun memory => memory.claim.serveable next.remoteId false
  | .net (.command cmd _) => cmd.kind?.isSome && sys.runtime.texts.contains text
  | _ => false

/-- Whether a step keeps the pending text with its session. -/
def keepsPending (sys : System ℕ) (l : SystemLabel ℕ) : Bool :=
  (sys.app.pendingOutbox.all fun text => !sys.drops text l) ||
    sys.events.any fun e => e.event.clears

/-- A step that is found to keep what is pending does.

**Proof sketch.** By the label: each of the two ways to drop a text is found by the test. -/
lemma keepsPending_of {sys : System ℕ} {l : SystemLabel ℕ} (h : sys.keepsPending l = true) :
    sys.KeepsPending l := by
  intro text htext hdrops
  simp only [keepsPending, htext, Option.all_some, Bool.or_eq_true, Bool.not_eq_true'] at h
  rcases h with h | h
  · have htrue : sys.drops text l = true := by
      unfold Drops at hdrops
      split at hdrops
      · obtain ⟨s, memory, hs, hm, hserve, hwriting⟩ := hdrops
        simp [drops, hs, hm, hserve, hwriting]
      · obtain ⟨hstart, hmem⟩ := hdrops
        simp [drops, hstart, hmem]
      · exact hdrops.elim
    rw [h] at htrue
    cases htrue
  · obtain ⟨e, he, hclears⟩ := List.any_eq_true.1 h
    exact ⟨e, he, hclears⟩

/-- A text that is on the clip channel of a session is pending. -/
theorem pending_never_wedges_sample : ∃ sys, Ran keyed joinerId twoPeers
      (connectsFirst ++ drains 7 ++ [sends "text"]) sys ∧ sys.app.pendingOutbox = some "text" ∧
    ("text" ∈ sys.commands.filterMap UiCommand.text? ∨ "text" ∈ sys.runtime.texts ∨ sys.Clearing ∨
      sys.Stopping) := by
  have hrun : ((Machine.exec (step keyed joinerId) (init twoPeers)
      (connectsFirst ++ drains 7 ++ [sends "text"])).any
        fun sys => sys.app.pendingOutbox == some "text") = true := by decide +kernel
  obtain ⟨sys, hexec, hpending⟩ := (Option.any_eq_true _ _).1 hrun
  have htext : sys.app.pendingOutbox = some "text" := by simpa using hpending
  exact ⟨sys, hexec, htext, (pending_never_wedges hexec
    (Machine.meets_of_check (fun _ _ => keepsPending_of) (by decide +kernel))).1 "text" htext⟩

/-- **A text that is lost when the peer connects anew stays pending**: both queues are empty, the
session holds no text and is connected, and no other text can be sent.

**Proof sketch.** The run is computed. -/
theorem preempted_text_wedges : ∃ sys, Ran hosted joinerId twoPeers preempts sys ∧ sys.Drained ∧
    sys.runtime.texts = [] ∧ sys.app.status = .connected ∧
    ∀ text, sys.app.sendText text = (sys.app, []) := by
  have hrun : ((Machine.exec (step hosted joinerId) (init twoPeers) preempts).any fun sys =>
      sys.drained && sys.runtime.texts.isEmpty && (sys.app.status == .connected) &&
        sys.app.pendingOutbox.isSome) = true := by decide +kernel
  obtain ⟨sys, hexec, hend⟩ := (Option.any_eq_true _ _).1 hrun
  simp only [Bool.and_eq_true, List.isEmpty_iff, beq_iff_eq] at hend
  obtain ⟨⟨⟨hdrained, htexts⟩, hstatus⟩, hpending⟩ := hend
  refine ⟨sys, hexec, drained_of hdrained, htexts, hstatus, fun text => ?_⟩
  unfold App.sendText
  rw [if_pos (Or.inr hpending)]

end Sample

end System

end Duocb
