import Duocb.Library.Ledger
import Duocb.Library.Machine
import Duocb.Net.Publisher

set_option relaxedAutoImplicit false
set_option autoImplicit false

/-!
# What the PIN publisher leaves on the local network

The PIN publisher advertises the record of each PIN by multicast, and serves it on a port of its
own. It keeps the two newest advertisements and the two newest listeners, so that the PIN before the
one on display is found too, and drops the older ones; to drop one is to withdraw it. A refresh
drops all of them, and so does the end of the publisher.

A record is named by its PIN and the bucket in which it was minted, from which its keys are derived.

## Main definitions

* `Duocb.PinLoop`, `Duocb.PinLoop.step` — the publisher with its advertisements and listeners.
* `Duocb.PinLoop.Inv` — they are in step with what it did, and with the PINs that were shown.

## Main results

* `Duocb.PinLoop.step_refines` — without them, this is the publisher of a session.
* `Duocb.PinLoop.standing_pins` — what stands on the local network, in every run.
-/

namespace Duocb

/-- A PIN, and the bucket in which it was minted. -/
abbrev Minted : Type := String × UInt64

/-- What a PIN publisher does to the outside. The records of the local network stand until they are
withdrawn or closed; the other actions leave nothing behind. -/
inductive PinAction where
  | surface (e : NetEvent)
  /-- It tries to advertise a record by multicast. -/
  | advertise (m : Minted) (ok : Bool)
  | withdraw (m : Minted)
  /-- It tries to serve a record on a port of its own. -/
  | listen (m : Minted) (ok : Bool)
  | close (m : Minted)
  /-- It tries to publish a record to the relays. -/
  | publish (m : Minted) (ok : Bool)
  deriving DecidableEq

namespace PinAction

/-- The event that an action surfaces. -/
def event? : PinAction → Option NetEvent
  | .surface e => some e
  | _ => none

/-- The entry of an action in the ledger of the advertisements. -/
def advert? : PinAction → Option (Ledger.Entry Minted)
  | .advertise m true => some (.take m)
  | .withdraw m => some (.release m)
  | _ => none

/-- The entry of an action in the ledger of the listeners. -/
def listener? : PinAction → Option (Ledger.Entry Minted)
  | .listen m true => some (.take m)
  | .close m => some (.release m)
  | _ => none

/-- An action keeps to a channel. -/
def Within (channel : SignalChannel) : PinAction → Prop
  | .surface _ => True
  | .advertise _ _ | .withdraw _ | .listen _ _ | .close _ => channel.lan = true
  | .publish _ _ => channel.nostr = true

end PinAction

/-- A record that was registered, with the outcomes. -/
structure Attempt where
  record : Minted
  dnssd : Bool
  bound : Bool
  deriving DecidableEq

/-- A PIN publisher with the advertisements and listeners that it holds, oldest first. For the
record: the PINs that were shown since the last refresh, and the records that were registered since
all of them were dropped. -/
structure PinLoop where
  publisher : PinPublisher
  shared : PinShared
  /-- The bucket of the PIN on display. -/
  bucket : UInt64
  adverts : List Minted
  unicast : List Minted
  shown : List Minted
  attempts : List Attempt
  deriving DecidableEq

/-- What moves a PIN publisher. An abort can come at any time, and ends the task without a step of
its own. -/
inductive PinLoopLabel where
  /-- It takes a step, in a bucket. -/
  | publish (bucket : UInt64) (l : PinLabel)
  /-- Its task is aborted. -/
  | abort
  /-- The user asks for a new PIN, a peer pairs, or the session is cancelled. -/
  | askRefresh
  | pair
  | cancel
  deriving DecidableEq

/-- How many advertisements are kept, and how many listeners. -/
def LOOK_BACK : ℕ := 2

namespace PinLoop

/-- A publisher that has shown nothing yet. -/
def start (shared : PinShared) : PinLoop := ⟨.minting, shared, 0, [], [], [], []⟩

/-- The records that were advertised since all of them were dropped. -/
def advertised (p : PinLoop) : List Minted :=
  (p.attempts.filter Attempt.dnssd).map Attempt.record

/-- The records that were served. -/
def served (p : PinLoop) : List Minted :=
  (p.attempts.filter Attempt.bound).map Attempt.record

variable (C : Crypto) (channel : SignalChannel)

/-- A record is registered, if that works, and the registrations beyond the newest are dropped. -/
def register (tries : Minted → Bool → PinAction) (drops : Minted → PinAction) (held : List Minted)
    (m : Minted) (ok : Bool) : List Minted × List PinAction :=
  if ok then (Ledger.newest LOOK_BACK (held ++ [m]),
    tries m true :: (Ledger.oldest LOOK_BACK (held ++ [m])).map drops)
  else (held, [tries m false])

/-- The multicast part of publishing a record. -/
def advertise (p : PinLoop) (m : Minted) (dnssd : Bool) : List Minted × List PinAction :=
  register .advertise .withdraw p.adverts m dnssd

/-- The part of the side channel. -/
def listen (p : PinLoop) (m : Minted) (bound : Bool) : List Minted × List PinAction :=
  register .listen .close p.unicast m bound

/-- The relays' part. -/
def publish (m : Minted) (nostr : Bool) : List PinAction :=
  if channel.nostr then [.publish m nostr] else []

/-- A record is published wherever it can be. The local network gets both forms of the record, each
in its own list, and the relays get theirs. -/
def publishRecord (p : PinLoop) (m : Minted) (dnssd bound nostr : Bool) :
    PinLoop × List PinAction :=
  if channel.lan then
    ({ p with
        adverts := (p.advertise m dnssd).1
        unicast := (p.listen m bound).1
        attempts := p.attempts ++ [⟨m, dnssd, bound⟩] },
      (p.advertise m dnssd).2 ++ (p.listen m bound).2 ++ publish channel m nostr)
  else (p, publish channel m nostr)

/-- Nothing is held any more. -/
def cleared (p : PinLoop) : PinLoop := { p with adverts := [], unicast := [], attempts := [] }

/-- Both queues are cleared. -/
def clear (p : PinLoop) : List PinAction := p.adverts.map .withdraw ++ p.unicast.map .close

/-- The task ends, and its locals are dropped, the last one first. -/
def exit (p : PinLoop) : List PinAction := p.unicast.map .close ++ p.adverts.map .withdraw

/-- What a step of the publisher itself does here, before it surfaces anything. It publishes the
record of the PIN whose keys it has derived; at all other steps it does nothing. -/
def before (p : PinLoop) : PinLabel → PinLoop × List PinAction
  | .derived ran record dnssd bound nostr =>
    match p.publisher with
    | .derivingKeys pin =>
      if ran ∧ record then p.publishRecord channel (pin, p.bucket) dnssd bound nostr else (p, [])
    | _ => (p, [])
  | _ => (p, [])

/-- And after that. A new PIN is entered among the shown ones. A refresh drops what stands, and so
does the end of the task. -/
def afterwards (p : PinLoop) (bucket : UInt64) (publisher : PinPublisher) :
    PinLabel → PinLoop × List PinAction
  | .mint pin _ =>
    if publisher = .stopped then (p.cleared, p.exit)
    else ({ p with bucket, shown := p.shown ++ [(pin, bucket)] }, [])
  | .derived _ _ _ _ _ | .rotate => (p, [])
  | .refresh => ({ p.cleared with shown := [] }, p.clear)
  | .paired | .cancelled => (p.cleared, p.exit)

/-- One step of a PIN publisher, and what it does. The step of the session's publisher is in the
middle; what it does to the local network comes before and after it. -/
def step (p : PinLoop) : PinLoopLabel → Option (PinLoop × List PinAction)
  | .publish bucket l =>
    (p.publisher.step C channel p.shared l).map fun r =>
      let published := p.before channel l
      let ended := published.1.afterwards bucket r.1 l
      ({ ended.1 with publisher := r.1, shared := r.2.1 },
        published.2 ++ r.2.2.map .surface ++ ended.2)
  | .abort => some ({ p.cleared with publisher := .stopped }, p.exit)
  | .askRefresh => some ({ p with shared := { p.shared with refresh := true } }, [])
  | .pair => some ({ p with shared := { p.shared with paired := true } }, [])
  | .cancel => some ({ p with shared := { p.shared with cancelled := true } }, [])

variable {C channel}

/-! ## Steps -/

/-- Everything a step of the publisher itself can do.

**Proof sketch.** By the label, and for each of them by the state of the publisher and the outcome
of the derivation. -/
lemma publisher_cases {q q' : PinPublisher} {sh sh' : PinShared} {l : PinLabel}
    {events : List NetEvent} (h : q.step C channel sh l = some (q', sh', events)) :
    (∃ pin ip, l = .mint pin ip ∧ (q' = .stopped ∨ q' = .derivingKeys pin)) ∨
      (∃ pin ran record dnssd bound nostr, l = .derived ran record dnssd bound nostr ∧
        q = .derivingKeys pin ∧ q' = .waiting) ∨
      (l = .rotate ∨ l = .refresh) ∧ q' = .minting ∨
      (l = .paired ∨ l = .cancelled) ∧ q' = .stopped := by
  have hfst : ∀ {r : PinPublisher × PinShared × List NetEvent},
      some r = some (q', sh', events) → q' = r.1 := by
    rintro r ⟨⟩
    rfl
  cases l with
  | mint pin ip =>
    simp only [PinPublisher.step] at h
    split at h
    · split at h
      · exact Or.inl ⟨pin, ip, rfl, Or.inl (hfst h)⟩
      · exact Or.inl ⟨pin, ip, rfl, Or.inr (hfst h)⟩
    · cases h
  | derived ran record dnssd bound nostr =>
    simp only [PinPublisher.step] at h
    split at h
    · rename_i pin
      refine Or.inr (Or.inl ⟨pin, ran, record, dnssd, bound, nostr, rfl, rfl, ?_⟩)
      split at h
      · exact hfst h
      · exact hfst h
    · cases h
  | rotate =>
    simp only [PinPublisher.step] at h
    split_ifs at h
    exact Or.inr (Or.inr (Or.inl ⟨Or.inl rfl, hfst h⟩))
  | refresh =>
    simp only [PinPublisher.step] at h
    split_ifs at h
    exact Or.inr (Or.inr (Or.inl ⟨Or.inr rfl, hfst h⟩))
  | paired =>
    simp only [PinPublisher.step] at h
    split_ifs at h
    exact Or.inr (Or.inr (Or.inr ⟨Or.inl rfl, hfst h⟩))
  | cancelled =>
    simp only [PinPublisher.step] at h
    split_ifs at h
    exact Or.inr (Or.inr (Or.inr ⟨Or.inr rfl, hfst h⟩))

/-! ## Ledgers -/

section Ledgers

variable {entry : PinAction → Option (Ledger.Entry Minted)} {tries : Minted → Bool → PinAction}
  {drops : Minted → PinAction} {held : List Minted} {outs actions : List PinAction}

/-- Registering a record keeps the registrations in step with their ledger.

**Proof sketch.** A registration that succeeds is pushed onto the ledger, which releases what is
beyond the newest two. One that fails is no entry. -/
lemma held_register (htakes : ∀ m, entry (tries m true) = some (.take m))
    (hfails : ∀ m, entry (tries m false) = none)
    (hdrops : ∀ m, entry (drops m) = some (.release m))
    (h : Ledger.held (outs.filterMap entry) = held) (m : Minted) (ok : Bool) :
    Ledger.held ((outs ++ (register tries drops held m ok).2).filterMap entry) =
      (register tries drops held m ok).1 := by
  cases ok with
  | true =>
    have hmap : ((Ledger.oldest LOOK_BACK (held ++ [m])).map drops).filterMap entry =
        (Ledger.oldest LOOK_BACK (held ++ [m])).map .release := by
      rw [List.filterMap_map, ← List.filterMap_eq_map]
      exact List.filterMap_congr fun m _ => hdrops m
    simp only [register, if_true, List.filterMap_append, List.filterMap_cons_some (htakes m), hmap]
    exact Ledger.held_push h LOOK_BACK m
  | false =>
    simp only [register, Bool.false_eq_true, if_false, List.filterMap_append,
      List.filterMap_cons_none (hfails m), List.filterMap_nil, List.append_nil]
    exact h

/-- So does dropping all of them. -/
lemma held_drops (hdrops : ∀ m, entry (drops m) = some (.release m))
    (h : Ledger.held (outs.filterMap entry) = held) :
    Ledger.held ((outs ++ held.map drops).filterMap entry) = [] := by
  have hmap : (held.map drops).filterMap entry = held.map .release := by
    rw [List.filterMap_map, ← List.filterMap_eq_map]
    exact List.filterMap_congr fun m _ => hdrops m
  rw [List.filterMap_append, hmap]
  exact Ledger.held_clear h

/-- Actions that are not in a ledger leave it as it is. -/
lemma held_append (hnone : ∀ a ∈ actions, entry a = none)
    (h : Ledger.held (outs.filterMap entry) = held) :
    Ledger.held ((outs ++ actions).filterMap entry) = held := by
  rw [List.filterMap_append, List.filterMap_eq_nil_iff.2 hnone, List.append_nil]
  exact h

/-- A queue holds the newest of the records that were registered. -/
lemma register_newest {l : List Minted} (h : held = Ledger.newest LOOK_BACK l) (m : Minted)
    (ok : Bool) : (register tries drops held m ok).1 =
      Ledger.newest LOOK_BACK (l ++ if ok then [m] else []) := by
  cases ok with
  | true =>
    rw [h]
    exact Ledger.newest_newest_append LOOK_BACK l m
  | false =>
    simp only [register, Bool.false_eq_true, if_false, List.append_nil]
    exact h

/-- Registering a record does not touch what another queue holds. -/
lemma forall_mem_register {P : PinAction → Prop} (htries : ∀ m ok, P (tries m ok))
    (hdrops : ∀ m, P (drops m)) (m : Minted) (ok : Bool) :
    ∀ a ∈ (register tries drops held m ok).2, P a := by
  intro a ha
  cases ok with
  | true =>
    rcases List.mem_cons.1 ha with rfl | ha
    · exact htries m true
    · obtain ⟨m', -, rfl⟩ := List.mem_map.1 ha
      exact hdrops m'
  | false =>
    obtain rfl := List.mem_singleton.1 ha
    exact htries m false

end Ledgers

/-! ## Records -/

variable {p p' : PinLoop} {outs actions : List PinAction}

/-- What publishing to the relays does, whatever it leaves alone. -/
lemma forall_mem_publish {P : PinAction → Prop} {m : Minted} {nostr : Bool}
    (h : channel.nostr = true → P (.publish m nostr)) : ∀ a ∈ publish channel m nostr, P a := by
  intro a ha
  unfold publish at ha
  split_ifs at ha with hn
  · obtain rfl := List.mem_singleton.1 ha
    exact h hn
  · cases ha

/-- Publishing a record surfaces nothing, and keeps to the channel.

**Proof sketch.** By the parts of what is done: the two registrations, and the publishing to the
relays. -/
lemma forall_mem_publishRecord {P : PinAction → Prop} {m : Minted} {dnssd bound nostr : Bool}
    (hlan : channel.lan = true → (∀ m ok, P (.advertise m ok)) ∧ (∀ m, P (.withdraw m)) ∧
      (∀ m ok, P (.listen m ok)) ∧ ∀ m, P (.close m))
    (hnostr : channel.nostr = true → P (.publish m nostr)) :
    ∀ a ∈ (p.publishRecord channel m dnssd bound nostr).2, P a := by
  intro a ha
  unfold publishRecord at ha
  split_ifs at ha with hl
  · obtain ⟨hadvertise, hwithdraw, hlisten, hclose⟩ := hlan hl
    rcases List.mem_append.1 ha with ha | ha
    · rcases List.mem_append.1 ha with ha | ha
      · exact forall_mem_register hadvertise hwithdraw m dnssd a ha
      · exact forall_mem_register hlisten hclose m bound a ha
    · exact forall_mem_publish hnostr a ha
  · exact forall_mem_publish hnostr a ha

/-- An attempt adds its record to the advertised ones if it was advertised. -/
lemma advertised_attempt (p : PinLoop) (m : Minted) (dnssd bound : Bool) :
    advertised { p with attempts := p.attempts ++ [⟨m, dnssd, bound⟩] } =
      p.advertised ++ if dnssd then [m] else [] := by
  cases dnssd <;> simp [advertised]

/-- An attempt adds its record to the served ones if it was served. -/
lemma served_attempt (p : PinLoop) (m : Minted) (dnssd bound : Bool) :
    served { p with attempts := p.attempts ++ [⟨m, dnssd, bound⟩] } =
      p.served ++ if bound then [m] else [] := by
  cases bound <;> simp [served]

/-! ## What stands -/

/-- What a publisher holds is in step with what it did: it holds the newest of the records that it
registered since it last dropped all of them. -/
structure Holds (p : PinLoop) (outs : List PinAction) : Prop where
  adverts : p.adverts = Ledger.newest LOOK_BACK p.advertised
  unicast : p.unicast = Ledger.newest LOOK_BACK p.served
  advert_held : Ledger.held (outs.filterMap PinAction.advert?) = p.adverts
  listener_held : Ledger.held (outs.filterMap PinAction.listener?) = p.unicast

/-- Surfacing an event takes nothing and gives nothing back. -/
lemma Holds.surface (h : p.Holds outs) (events : List NetEvent) :
    p.Holds (outs ++ events.map .surface) :=
  ⟨h.adverts, h.unicast,
    held_append (List.forall_mem_map.2 fun _ _ => rfl) h.advert_held,
    held_append (List.forall_mem_map.2 fun _ _ => rfl) h.listener_held⟩


/-- Publishing a record registers it.

**Proof sketch.** The adverts and the listeners are registered each in a ledger of its own, by the
general rule for registering. Publishing to the relays touches no ledger. -/
lemma Holds.publishRecord (h : p.Holds outs) (m : Minted) (dnssd bound nostr : Bool) :
    (p.publishRecord channel m dnssd bound nostr).1.Holds
      (outs ++ (p.publishRecord channel m dnssd bound nostr).2) := by
  have hpublish : ∀ {entry : PinAction → Option (Ledger.Entry Minted)},
      entry (.publish m nostr) = none → ∀ a ∈ publish channel m nostr, entry a = none :=
    fun he => forall_mem_publish fun _ => he
  unfold PinLoop.publishRecord
  split_ifs with hl
  · have hadverts : Ledger.held ((outs ++ (p.advertise m dnssd).2).filterMap PinAction.advert?) =
        (p.advertise m dnssd).1 :=
      held_register (fun _ => rfl) (fun _ => rfl) (fun _ => rfl) h.advert_held m dnssd
    have hlisteners : Ledger.held
        ((outs ++ (p.advertise m dnssd).2).filterMap PinAction.listener?) = p.unicast :=
      held_append (forall_mem_register (P := fun a => a.listener? = none) (fun _ _ => rfl)
        (fun _ => rfl) m dnssd) h.listener_held
    refine ⟨?_, ?_, ?_, ?_⟩
    · exact (register_newest h.adverts m dnssd).trans
        (congrArg _ (advertised_attempt p m dnssd bound).symm)
    · exact (register_newest h.unicast m bound).trans
        (congrArg _ (served_attempt p m dnssd bound).symm)
    · rw [← List.append_assoc, ← List.append_assoc]
      exact held_append (hpublish rfl) (held_append (forall_mem_register
        (P := fun a => a.advert? = none) (fun _ _ => rfl) (fun _ => rfl) m bound) hadverts)
    · rw [← List.append_assoc, ← List.append_assoc]
      exact held_append (hpublish rfl)
        (held_register (fun _ => rfl) (fun _ => rfl) (fun _ => rfl) hlisteners m bound)
  · exact ⟨h.adverts, h.unicast, held_append (hpublish rfl) h.advert_held,
      held_append (hpublish rfl) h.listener_held⟩

/-- Dropping everything, in either order, leaves nothing that stands.

**Proof sketch.** Each ledger is emptied by releasing all that it holds, and the entries of the
other one do not touch it. -/
lemma Holds.drop (h : p.Holds outs) {q : PinLoop} (hadverts : q.adverts = [])
    (hunicast : q.unicast = []) (hattempts : q.attempts = [])
    (hactions : actions = p.clear ∨ actions = p.exit) : q.Holds (outs ++ actions) := by
  refine ⟨by simp [advertised, Ledger.newest, hadverts, hattempts],
    by simp [served, Ledger.newest, hunicast, hattempts], ?_, ?_⟩
  · rw [hadverts]
    rcases hactions with rfl | rfl
    · rw [clear, ← List.append_assoc]
      exact held_append (List.forall_mem_map.2 fun _ _ => rfl)
        (held_drops (fun _ => rfl) h.advert_held)
    · rw [exit, ← List.append_assoc]
      exact held_drops (fun _ => rfl)
        (held_append (List.forall_mem_map.2 fun _ _ => rfl) h.advert_held)
  · rw [hunicast]
    rcases hactions with rfl | rfl
    · rw [clear, ← List.append_assoc]
      exact held_drops (fun _ => rfl)
        (held_append (List.forall_mem_map.2 fun _ _ => rfl) h.listener_held)
    · rw [exit, ← List.append_assoc]
      exact held_append (List.forall_mem_map.2 fun _ _ => rfl)
        (held_drops (fun _ => rfl) h.listener_held)

/-- What is known of a publisher and of all that it did: it registers each PIN that it shows at most
once, after it is shown, on the local network only where the session uses it, and leaves nothing
when it is done. -/
structure Inv (channel : SignalChannel) (p : PinLoop) (outs : List PinAction) : Prop where
  holds : p.Holds outs
  shown : (p.attempts.map Attempt.record).Sublist p.shown
  display : ∀ pin, p.publisher = .derivingKeys pin → ∃ earlier,
    p.shown = earlier ++ [(pin, p.bucket)] ∧ (p.attempts.map Attempt.record).Sublist earlier
  stopped : p.publisher = .stopped → p.attempts = []
  lan : p.attempts ≠ [] → channel.lan = true
  within : ∀ a ∈ outs, a.Within channel

/-- A publisher that has just begun has nothing on its ledger. -/
lemma inv_start (shared : PinShared) : (start shared).Inv channel [] where
  holds := ⟨rfl, rfl, rfl, rfl⟩
  shown := List.Sublist.refl _
  display := by
    rintro pin ⟨⟩
  stopped := fun _ => rfl
  lan := fun h => absurd rfl h
  within := by simp

/-- What a publisher holds is only on the local network. -/
lemma Inv.lan_of_mem (h : p.Inv channel outs) {m : Minted} (hm : m ∈ p.adverts ∨ m ∈ p.unicast) :
    channel.lan = true := by
  refine h.lan fun hnil => ?_
  rcases hm with hm | hm
  · rw [h.holds.adverts, advertised, hnil] at hm
    cases hm
  · rw [h.holds.unicast, served, hnil] at hm
    cases hm

/-- What was shown, and what else the publisher shares, may change as long as no PIN is on its
way. -/
lemma Inv.next (h : p.Inv channel outs) {q : PinPublisher} (hq : ∀ pin, q ≠ .derivingKeys pin)
    (hstopped : q = .stopped → p.attempts = []) (shared : PinShared) (events : List NetEvent) :
    Inv channel { p with publisher := q, shared := shared } (outs ++ events.map .surface) where
  holds := ⟨h.holds.adverts, h.holds.unicast, (h.holds.surface events).advert_held,
    (h.holds.surface events).listener_held⟩
  shown := h.shown
  display := fun pin hpin => absurd hpin (hq pin)
  stopped := hstopped
  lan := h.lan
  within := List.forall_mem_append.2 ⟨h.within, List.forall_mem_map.2 fun _ _ => trivial⟩

/-- Dropping everything keeps to the channel. -/
lemma Inv.within_drop (h : p.Inv channel outs) (hactions : actions = p.clear ∨ actions = p.exit) :
    ∀ a ∈ actions, a.Within channel := by
  have hadverts : ∀ a ∈ p.adverts.map PinAction.withdraw, a.Within channel :=
    List.forall_mem_map.2 fun _ hm => h.lan_of_mem (Or.inl hm)
  have hunicast : ∀ a ∈ p.unicast.map PinAction.close, a.Within channel :=
    List.forall_mem_map.2 fun _ hm => h.lan_of_mem (Or.inr hm)
  rcases hactions with rfl | rfl
  · exact List.forall_mem_append.2 ⟨hadverts, hunicast⟩
  · exact List.forall_mem_append.2 ⟨hunicast, hadverts⟩

/-- Dropping everything keeps the invariant. -/
lemma Inv.drop (h : p.Inv channel outs) {q : PinLoop} (hadverts : q.adverts = [])
    (hunicast : q.unicast = []) (hattempts : q.attempts = [])
    (hq : ∀ pin, q.publisher ≠ .derivingKeys pin)
    (hactions : actions = p.clear ∨ actions = p.exit) (events : List NetEvent) :
    q.Inv channel (outs ++ events.map .surface ++ actions) where
  holds := (h.holds.surface events).drop hadverts hunicast hattempts hactions
  shown := hattempts ▸ List.nil_sublist _
  display := fun pin hpin => absurd hpin (hq pin)
  stopped := fun _ => hattempts
  lan := fun hne => absurd hattempts hne
  within := List.forall_mem_append.2 ⟨List.forall_mem_append.2
    ⟨h.within, List.forall_mem_map.2 fun _ _ => trivial⟩, h.within_drop hactions⟩

/-- A fresh PIN is shown.

**Proof sketch.** Nothing is registered. The shown PINs are those before and this one, which is the
one on display. -/
lemma Inv.mint (h : p.Inv channel outs) (pin : String) (bucket : UInt64) (shared : PinShared)
    (events : List NetEvent) :
    Inv channel { p with
        publisher := .derivingKeys pin
        shared := shared
        bucket := bucket
        shown := p.shown ++ [(pin, bucket)] } (outs ++ events.map .surface) where
  holds := ⟨h.holds.adverts, h.holds.unicast, (h.holds.surface events).advert_held,
    (h.holds.surface events).listener_held⟩
  shown := h.shown.trans (List.sublist_append_left _ _)
  display := by
    rintro _ ⟨⟩
    exact ⟨p.shown, rfl, h.shown⟩
  stopped := by
    rintro ⟨⟩
  lan := h.lan
  within := List.forall_mem_append.2 ⟨h.within, List.forall_mem_map.2 fun _ _ => trivial⟩

/-- The PIN on display is published.

**Proof sketch.** The record is registered by the lemma about publishing. The PIN was the last one
shown, so that what is registered is still in the order of the shown ones. -/
lemma Inv.publishRecord (h : p.Inv channel outs) {pin : String}
    (hpin : p.publisher = .derivingKeys pin) (dnssd bound nostr : Bool) (shared : PinShared) :
    Inv channel { (p.publishRecord channel (pin, p.bucket) dnssd bound nostr).1 with
        publisher := .waiting
        shared := shared }
      (outs ++ (p.publishRecord channel (pin, p.bucket) dnssd bound nostr).2) := by
  obtain ⟨earlier, hshown, hearlier⟩ := h.display pin hpin
  have hholds : (p.publishRecord channel (pin, p.bucket) dnssd bound nostr).1.Holds
      (outs ++ (p.publishRecord channel (pin, p.bucket) dnssd bound nostr).2) :=
    h.holds.publishRecord (pin, p.bucket) dnssd bound nostr
  refine ⟨⟨hholds.adverts, hholds.unicast, hholds.advert_held, hholds.listener_held⟩,
    ?_, ?_, ?_, ?_, ?_⟩
  · unfold PinLoop.publishRecord
    split_ifs
    · rw [hshown, List.map_append]
      exact hearlier.append_right _
    · exact h.shown
  · rintro _ ⟨⟩
  · rintro ⟨⟩
  · unfold PinLoop.publishRecord
    split_ifs with hl
    · exact fun _ => hl
    · exact h.lan
  · refine List.forall_mem_append.2 ⟨h.within, forall_mem_publishRecord ?_ fun hn => hn⟩
    exact fun hl => ⟨fun _ _ => hl, fun _ => hl, fun _ _ => hl, fun _ => hl⟩

/-- **Without what stands on the local network**, this is the publisher of a session.

**Proof sketch.** The projections of the two sides are compared part by part. What happens before
and after the step of the session's publisher surfaces no event and changes no state that it has. -/
theorem step_refines {bucket : UInt64} {l : PinLabel}
    (h : p.step C channel (.publish bucket l) = some (p', actions)) :
    p.publisher.step C channel p.shared l =
      some (p'.publisher, p'.shared, actions.filterMap PinAction.event?) := by
  obtain ⟨⟨q, shared, events⟩, hq, hp⟩ := Option.map_eq_some_iff.1 h
  obtain ⟨rfl, rfl⟩ := Prod.mk.inj hp
  have hbefore : (p.before channel l).2.filterMap PinAction.event? = [] := by
    refine List.filterMap_eq_nil_iff.2 ?_
    unfold before
    split
    · split
      · split_ifs
        · exact forall_mem_publishRecord (P := fun a => a.event? = none)
            (fun _ => ⟨fun _ _ => rfl, fun _ => rfl, fun _ _ => rfl, fun _ => rfl⟩) fun _ => rfl
        · exact List.forall_mem_nil _
      · exact List.forall_mem_nil _
    · exact List.forall_mem_nil _
  have hafter : ((p.before channel l).1.afterwards bucket q l).2.filterMap PinAction.event? =
      [] := by
    refine List.filterMap_eq_nil_iff.2 ?_
    have hdrop : ∀ (p : PinLoop), (∀ a ∈ p.clear, a.event? = none) ∧
        ∀ a ∈ p.exit, a.event? = none := fun p =>
      ⟨List.forall_mem_append.2 ⟨List.forall_mem_map.2 fun _ _ => rfl,
        List.forall_mem_map.2 fun _ _ => rfl⟩,
      List.forall_mem_append.2 ⟨List.forall_mem_map.2 fun _ _ => rfl,
        List.forall_mem_map.2 fun _ _ => rfl⟩⟩
    cases l with
    | mint pin ip =>
      simp only [afterwards]
      split_ifs
      · exact (hdrop _).2
      · exact List.forall_mem_nil _
    | derived ran record dnssd bound nostr => exact List.forall_mem_nil _
    | rotate => exact List.forall_mem_nil _
    | refresh => exact (hdrop _).1
    | paired => exact (hdrop _).2
    | cancelled => exact (hdrop _).2
  have hevents : (events.map PinAction.surface).filterMap PinAction.event? = events := by
    rw [List.filterMap_map]
    exact List.filterMap_some
  rw [hq, List.filterMap_append, List.filterMap_append, hbefore, hafter, hevents]
  simp

/-- Every step keeps what is known of a publisher.

**Proof sketch.** By what the publisher itself can do. A step that mints or stops drops what stands.
A derived record is registered. The other steps touch no ledger. -/
theorem Inv.step (h : p.Inv channel outs) {l : PinLoopLabel}
    (hstep : p.step C channel l = some (p', actions)) : p'.Inv channel (outs ++ actions) := by
  cases l with
  | publish bucket l =>
    obtain ⟨⟨q, shared, events⟩, hq, hp⟩ := Option.map_eq_some_iff.1 hstep
    obtain ⟨rfl, rfl⟩ := Prod.mk.inj hp
    dsimp only
    rw [← List.append_assoc, ← List.append_assoc]
    rcases publisher_cases hq with ⟨pin, ip, rfl, rfl | rfl⟩ |
      ⟨pin, ran, record, dnssd, bound, nostr, rfl, hpin, rfl⟩ | ⟨rfl | rfl, rfl⟩ | ⟨rfl | rfl, rfl⟩
    · simpa [before, afterwards] using
        h.drop (q := { p.cleared with publisher := .stopped, shared := shared }) rfl rfl rfl
          (by rintro _ ⟨⟩) (Or.inr rfl) events
    · simpa [before, afterwards] using h.mint pin bucket shared events
    · simp only [before, hpin, afterwards, List.append_nil]
      split_ifs
      · exact (h.publishRecord hpin dnssd bound nostr shared).next (q := .waiting)
          (by rintro _ ⟨⟩) (by rintro ⟨⟩) shared events
      · rw [List.append_nil]
        exact h.next (by rintro _ ⟨⟩) (by rintro ⟨⟩) shared events
    · simpa [before, afterwards] using
        h.next (q := .minting) (by rintro _ ⟨⟩) (by rintro ⟨⟩) shared events
    · simpa [before, afterwards] using
        h.drop (q := { p.cleared with shown := [], publisher := .minting, shared := shared })
          rfl rfl rfl (by rintro _ ⟨⟩) (Or.inl rfl) events
    · simpa [before, afterwards] using
        h.drop (q := { p.cleared with publisher := .stopped, shared := shared }) rfl rfl rfl
          (by rintro _ ⟨⟩) (Or.inr rfl) events
    · simpa [before, afterwards] using
        h.drop (q := { p.cleared with publisher := .stopped, shared := shared }) rfl rfl rfl
          (by rintro _ ⟨⟩) (Or.inr rfl) events
  | abort =>
    obtain ⟨rfl, rfl⟩ := by simpa [PinLoop.step] using hstep
    simpa using h.drop (q := { p.cleared with publisher := .stopped }) rfl rfl rfl
      (by rintro _ ⟨⟩) (Or.inr rfl) []
  | askRefresh =>
    obtain ⟨rfl, rfl⟩ := by simpa [PinLoop.step] using hstep
    rw [List.append_nil]
    exact ⟨⟨h.holds.1, h.holds.2, h.holds.3, h.holds.4⟩, h.shown, h.display, h.stopped, h.lan,
      h.within⟩
  | pair =>
    obtain ⟨rfl, rfl⟩ := by simpa [PinLoop.step] using hstep
    rw [List.append_nil]
    exact ⟨⟨h.holds.1, h.holds.2, h.holds.3, h.holds.4⟩, h.shown, h.display, h.stopped, h.lan,
      h.within⟩
  | cancel =>
    obtain ⟨rfl, rfl⟩ := by simpa [PinLoop.step] using hstep
    rw [List.append_nil]
    exact ⟨⟨h.holds.1, h.holds.2, h.holds.3, h.holds.4⟩, h.shown, h.display, h.stopped, h.lan,
      h.within⟩

/-- **What stands on the local network**, in every run: of the records that were advertised since
all of them were dropped, the newest two, and likewise of those that were served. Each is of a PIN
that was shown since the last refresh, once for each time it was shown, in that order. Nothing
stands once the publisher is done, however it ended, and it never leaves the session's channels.

**Proof sketch.** The ledgers are kept by every step, so what stands is what the publisher
remembers; that these are the newest two follows from the rule of the ledger. -/
theorem standing_pins {shared : PinShared} {labels : List PinLoopLabel}
    (hrun : Machine.run (step C channel) (start shared) labels = some (p, outs)) :
    Ledger.held (outs.filterMap PinAction.advert?) = Ledger.newest LOOK_BACK p.advertised ∧
      Ledger.held (outs.filterMap PinAction.listener?) = Ledger.newest LOOK_BACK p.served ∧
      p.advertised.Sublist p.shown ∧ p.served.Sublist p.shown ∧
      (p.publisher = .stopped → Ledger.held (outs.filterMap PinAction.advert?) = [] ∧
        Ledger.held (outs.filterMap PinAction.listener?) = []) ∧
      ∀ a ∈ outs, a.Within channel := by
  have hinv : p.Inv channel outs :=
    Machine.run_invariant (I := Inv channel) (fun _ _ _ _ _ h => h.step) (inv_start shared) hrun
  have hadverts := hinv.holds.advert_held.trans hinv.holds.adverts
  have hlisteners := hinv.holds.listener_held.trans hinv.holds.unicast
  refine ⟨hadverts, hlisteners, ?_, ?_, fun hstopped => ?_, hinv.within⟩
  · exact (List.filter_sublist.map _).trans hinv.shown
  · exact (List.filter_sublist.map _).trans hinv.shown
  · have hnone := hinv.stopped hstopped
    rw [hadverts, hlisteners, advertised, served, hnone]
    exact ⟨rfl, rfl⟩

section Sample

open Duocb.Sample

/-- A PIN is shown, and its record is registered as far as that works. -/
def sampleTurn (pin : String) (bucket : UInt64) (dnssd : Bool) : List PinLoopLabel :=
  [.publish bucket (.mint pin none), .publish bucket (.derived true true dnssd true false),
    .publish bucket .rotate]

/-- A PIN is revoked, and of the three after it the second is not advertised. -/
def sampleLabels : List PinLoopLabel :=
  [.publish 7 (.mint "one" none), .publish 7 (.derived true true true true false), .askRefresh,
    .publish 7 .refresh] ++ sampleTurn "two" 7 true ++ sampleTurn "three" 8 false ++
    sampleTurn "four" 9 true

/-- The two that were advertised stand, and the two newest are served.

**Proof sketch.** The run is computed, with what it has attempted. The theorem then gives what
stands. -/
theorem standing_pins_sample : ∃ p outs,
    Machine.run (step plain .lanOnly) (start ⟨false, [], false, false⟩) sampleLabels =
      some (p, outs) ∧
    Ledger.held (outs.filterMap PinAction.advert?) = [("two", 7), ("four", 9)] ∧
    Ledger.held (outs.filterMap PinAction.listener?) = [("three", 8), ("four", 9)] ∧
    p.shown = [("two", 7), ("three", 8), ("four", 9)] := by
  obtain ⟨⟨p, outs⟩, hrun⟩ := Option.isSome_iff_exists.1 (show (Machine.run (step plain .lanOnly)
    (start ⟨false, [], false, false⟩) sampleLabels).isSome from rfl)
  have hp : p.attempts = [⟨("two", 7), true, true⟩, ⟨("three", 8), false, true⟩,
      ⟨("four", 9), true, true⟩] ∧ p.shown = [("two", 7), ("three", 8), ("four", 9)] := by
    have hfst := congrArg (Option.map Prod.fst) hrun
    obtain rfl := Option.some.inj hfst
    exact ⟨rfl, rfl⟩
  obtain ⟨hadverts, hlisteners, -⟩ := standing_pins hrun
  refine ⟨p, outs, hrun, hadverts.trans ?_, hlisteners.trans ?_, hp.2⟩
  · rw [advertised, hp.1]
    rfl
  · rw [served, hp.1]
    rfl

end Sample

end PinLoop

end Duocb
