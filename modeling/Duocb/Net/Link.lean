import Mathlib.Logic.Function.Basic
import Duocb.Library.Machine
import Duocb.Library.Resend
import Duocb.Net.Pump

set_option relaxedAutoImplicit false
set_option autoImplicit false

/-!
# Two ends of a clipboard link

Two devices that hold a clipboard session with each other, over any number of connections: the
dialer opens them one after the other, the host starts a pump on a connection once it has
authenticated it, and the dialer once it has read the host's verdict. A pump can end or be dropped
at any moment, in the middle of a write too, and either device can start its session again. A
connection is an ordered stream in each direction: what is read is a prefix of what was written, and
nothing is read from a connection after its pump is gone.

Each end keeps a history of what it did. The histories, and the entries that packets carry, are read
by nothing.

## Main definitions

* `Duocb.Link` — the two ends and the packets between them.
* `Duocb.Link.step` — one step of either end, of a connection, or of the user.
* `Duocb.Link.lane` — one direction of a link, as a sender that can send its last item again.

## Main results

* `Duocb.Link.lane_step` — a step of the link is a move of each of its lanes, or none.
* `Duocb.Link.reachable_inv` — the invariant of a lane holds of both lanes in every run.
* `Duocb.Link.exec_kept` — in a run that cuts no write, nothing the sender took is lost.
-/

namespace Duocb

/-- The two ends. -/
inductive Side where
  | host
  | dialer
  deriving DecidableEq

/-- The other end. -/
def Side.other : Side → Side
  | host => dialer
  | dialer => host

/-- The other side of the other side is the side itself. -/
@[simp] lemma Side.other_other (x : Side) : x.other.other = x := by cases x <;> rfl

/-- No side is its own other side. -/
@[simp] lemma Side.other_ne (x : Side) : x.other ≠ x := by cases x <;> decide

/-- No side is its own other side, written the other way round. -/
@[simp] lemma Side.ne_other (x : Side) : x ≠ x.other := by cases x <;> decide

/-- What holds of a side and of the other one holds of both. -/
lemma Side.both {P : Side → Prop} (x : Side) (hx : P x) (ho : P x.other) (y : Side) : P y := by
  cases x <;> cases y <;> assumption

/-- A text that was surfaced with its send time, and where it stands among the sender's. -/
abbrev Got : Type := Resend.Entry (String × ℕ)

/-- A frame on its way, with what the reader will surface. -/
structure Packet where
  conn : ℕ
  frame : Frame
  entry : Option Got
  deriving DecidableEq

/-- One end: its session's clip state and its pump with the connection it runs on. The histories:
the texts its writer took off the channel with their times, those whose item it has fully written,
and what it surfaced. -/
structure End where
  clip : Clip
  pump : Option (ℕ × Pump)
  taken : List (String × ℕ)
  sent : List ℕ
  got : List Got
  deriving DecidableEq

/-- An end of a fresh session. -/
def End.init : End := ⟨⟨[], none⟩, none, [], [], []⟩

/-- A link: the two ends, what each has in flight to the other, how many connections the dialer has
opened, and the last one each end has pumped. -/
structure Link where
  ends : Side → End
  flight : Side → List Packet
  dialed : ℕ
  pumped : Side → ℕ

/-- Two fresh sessions. -/
def Link.init : Link := ⟨fun _ => .init, fun _ => [], 0, fun _ => 0⟩

/-- What moves a link. They are interleaved in any order. A connection may be cut at any point, and
one that is dialed again is a new one. -/
inductive LinkLabel where
  /-- A text is put into an end's clip channel. -/
  | send (x : Side) (text : String)
  /-- The dialer, which pumps nothing, opens the next connection. -/
  | dial
  /-- The host, which pumps nothing, authenticates a connection and starts its pump on it. -/
  | accept (conn : ℕ)
  /-- The dialer, which has the host's verdict on its connection, starts its pump on it. -/
  | establish
  /-- A pump's own step. -/
  | pump (x : Side) (l : PumpLabel)
  /-- A pump reads the next frame of its connection. -/
  | deliver (x : Side)
  /-- A pump is dropped: its session preempts it, or gives it up. -/
  | drop (x : Side)
  /-- A session is stopped and started again: with a fresh clip channel, and nothing sent. -/
  | restart (x : Side)

/-- Whether a label of a pump is its own: it takes a text at a time that fits its field, and it
reads nothing that the other end did not write. -/
def PumpLabel.own : PumpLabel → Bool
  | .takeItem nowMs => decide (nowMs < 2 ^ 64)
  | .read (.ok _) => false
  | _ => true

namespace End

/-- What the other end will surface once it reads the frame a writer has just written. -/
def entry (e : End) : Writer → Option Got
  | .pulling | .ready => none
  | .item text ms => some ⟨e.taken.length - 1, (text, ms), false, e.taken.length⟩
  | .latest text ms => some ⟨e.sent.getLastD 0, (text, ms), true, e.taken.length⟩

/-- The histories after a step of the pump `p`: a text that left the channel was taken, and an item
that was written was sent. -/
def record (e : End) (l : PumpLabel) (p : Pump) : List (String × ℕ) × List ℕ :=
  match l, p.writer, e.clip.queue with
  | .takeItem nowMs, _, text :: _ => (e.taken ++ [(text, nowMs)], e.sent)
  | .written, .item _ _, _ => (e.taken, e.sent ++ [e.taken.length - 1])
  | _, _, _ => (e.taken, e.sent)

end End

namespace Link

/-- Start a pump of `x` on a connection. What is still in flight on earlier ones is lost. The frames
that the other end has written on an earlier connection can no longer be read. -/
def startPump (s : Link) (x : Side) (conn : ℕ) : Link :=
  { s with
    ends := Function.update s.ends x { s.ends x with pump := some (conn, .start) }
    flight := Function.update s.flight x.other
      ((s.flight x.other).filter fun k => conn ≤ k.conn)
    pumped := Function.update s.pumped x conn }

/-- An end after a step of its pump on a connection. A pump that has ended leaves the connection;
the clip channel stays with the end. -/
def setPump (e : End) (conn : ℕ) (p' : PumpState) (clip' : Clip) : End :=
  { e with
    clip := clip'
    pump := match p' with
      | .inl p' => some (conn, p')
      | .inr _ => none }

/-- A pump of `x` takes a step of its own. What it writes is on its way on its connection. What the
writer has taken and has written in full is recorded beside it. -/
def stepPump (s : Link) (x : Side) (conn : ℕ) (p : Pump) (l : PumpLabel) : Option Link :=
  let e := s.ends x
  (p.step e.clip l).map fun (p', clip', out) =>
    let frames := out.filterMap fun
      | .frame f => some ⟨conn, f, e.entry p.writer⟩
      | .event _ => none
    let history := e.record l p
    { s with
      ends := Function.update s.ends x
        { setPump e conn p' clip' with taken := history.1, sent := history.2 }
      flight := Function.update s.flight x (s.flight x ++ frames) }

/-- A pump of `x` reads a frame of the other end and surfaces what it says. A text that is surfaced
is recorded with the number of its item, and whether it was pulled. -/
def stepDeliver (s : Link) (x : Side) (conn : ℕ) (p : Pump) (k : Packet) (rest : List Packet) :
    Link :=
  let e := s.ends x
  let (p', clip', out) := p.stepRead e.clip (.ok k.frame)
  let got := out.filterMap fun
    | .event (.itemReceived text pulled) =>
      k.entry.map fun g => { g with item := (text, g.item.2), again := pulled }
    | _ => none
  { s with
    ends := Function.update s.ends x { setPump e conn p' clip' with got := e.got ++ got }
    flight := Function.update s.flight x.other rest }

/-- An end of the link becomes another one. -/
def setEnd (s : Link) (x : Side) (e : End) : Link := { s with ends := Function.update s.ends x e }

/-- One step of the link. The host starts its pump on a connection that is newer than its last one,
and the dialer on its newest one once the host has. -/
def step (s : Link) : LinkLabel → Option Link
  | .send x text =>
    let clip := (s.ends x).clip
    some (s.setEnd x { s.ends x with clip := { clip with queue := clip.queue ++ [text] } })
  | .dial =>
    if (s.ends .dialer).pump.isNone then some { s with dialed := s.dialed + 1 } else none
  | .accept conn =>
    if (s.ends .host).pump.isNone ∧ s.pumped .host < conn ∧ conn ≤ s.dialed then
      some (s.startPump .host conn)
    else none
  | .establish =>
    if (s.ends .dialer).pump.isNone ∧ s.pumped .dialer < s.dialed ∧ s.pumped .host = s.dialed then
      some (s.startPump .dialer s.dialed)
    else none
  | .pump x l =>
    match (s.ends x).pump with
    | some (conn, p) => if l.own then s.stepPump x conn p l else none
    | none => none
  | .deliver x =>
    match (s.ends x).pump, s.flight x.other with
    | some (conn, p), k :: rest =>
      if k.conn = conn then some (s.stepDeliver x conn p k rest) else none
    | _, _ => none
  | .drop x =>
    match (s.ends x).pump with
    | some _ => some (s.setEnd x { s.ends x with pump := none })
    | none => none
  | .restart x => some (s.setEnd x { s.ends x with pump := none, clip := ⟨[], none⟩ })

/-! ### What a step can do -/

/-- **Everything a step of the link can do.** It is the step function read as a relation, with the
guards of each branch as premises. -/
inductive Stepped (s : Link) : LinkLabel → Link → Prop
  | sent (x : Side) (text : String) :
      Stepped s (.send x text) (s.setEnd x { s.ends x with
        clip := { (s.ends x).clip with queue := (s.ends x).clip.queue ++ [text] } })
  | dialed (hp : (s.ends .dialer).pump = none) : Stepped s .dial { s with dialed := s.dialed + 1 }
  | accepted (conn : ℕ) (hp : (s.ends .host).pump = none) (hnew : s.pumped .host < conn)
      (hd : conn ≤ s.dialed) : Stepped s (.accept conn) (s.startPump .host conn)
  | established (hp : (s.ends .dialer).pump = none) (hnew : s.pumped .dialer < s.dialed)
      (hh : s.pumped .host = s.dialed) : Stepped s .establish (s.startPump .dialer s.dialed)
  | pumped (x : Side) (l : PumpLabel) (conn : ℕ) (p : Pump) (s' : Link)
      (hp : (s.ends x).pump = some (conn, p)) (hown : l.own = true)
      (hs' : s.stepPump x conn p l = some s') : Stepped s (.pump x l) s'
  | delivered (x : Side) (conn : ℕ) (p : Pump) (k : Packet) (rest : List Packet)
      (hp : (s.ends x).pump = some (conn, p)) (hf : s.flight x.other = k :: rest)
      (hk : k.conn = conn) : Stepped s (.deliver x) (s.stepDeliver x conn p k rest)
  | dropped (x : Side) (conn : ℕ) (p : Pump) (hp : (s.ends x).pump = some (conn, p)) :
      Stepped s (.drop x) (s.setEnd x { s.ends x with pump := none })
  | restarted (x : Side) :
      Stepped s (.restart x) (s.setEnd x { s.ends x with pump := none, clip := ⟨[], none⟩ })

/-- **The inversion rule of a link**: every step is one of those above.

**Proof sketch.** One constructor of the relation for each branch of the step function; each guard
becomes a premise. -/
theorem step_cases {s s' : Link} {l : LinkLabel} (h : s.step l = some s') : Stepped s l s' := by
  cases l with
  | send x text =>
    obtain rfl := Option.some.inj h
    exact .sent x text
  | dial =>
    simp only [step] at h
    split at h
    · rename_i hp
      obtain rfl := Option.some.inj h
      exact .dialed (Option.isNone_iff_eq_none.1 hp)
    · cases h
  | accept conn =>
    simp only [step] at h
    split at h
    · rename_i hc
      obtain rfl := Option.some.inj h
      exact .accepted conn (Option.isNone_iff_eq_none.1 hc.1) hc.2.1 hc.2.2
    · cases h
  | establish =>
    simp only [step] at h
    split at h
    · rename_i hc
      obtain rfl := Option.some.inj h
      exact .established (Option.isNone_iff_eq_none.1 hc.1) hc.2.1 hc.2.2
    · cases h
  | pump x l =>
    simp only [step] at h
    split at h
    · rename_i conn p hp
      split at h
      · rename_i hown
        exact .pumped x l conn p s' hp hown h
      · cases h
    · cases h
  | deliver x =>
    simp only [step] at h
    split at h
    · rename_i conn p k rest hp hf
      split at h
      · rename_i hk
        obtain rfl := Option.some.inj h
        exact .delivered x conn p k rest hp hf hk
      · cases h
    · cases h
  | drop x =>
    simp only [step] at h
    split at h
    · rename_i cp hp
      obtain rfl := Option.some.inj h
      exact .dropped x cp.1 cp.2 hp
    · cases h
  | restart x =>
    obtain rfl := Option.some.inj h
    exact .restarted x

/-! ## One direction of a link -/

/-- A text fits with its send time. -/
def ok (a : String × ℕ) : Prop := (ClipMsg.item a.1 a.2).toFrame.size ≤ MAX_CLIP_MESSAGE_SIZE

/-- A text fits as a re-delivery. -/
def small (a : String × ℕ) : Prop := (ClipMsg.latest a.1 a.2).toFrame.size ≤ MAX_CLIP_MESSAGE_SIZE

/-- Whether a text fits in an item frame is decided by its length. -/
instance : DecidablePred ok := fun a =>
  inferInstanceAs (Decidable ((ClipMsg.item a.1 a.2).toFrame.size ≤ MAX_CLIP_MESSAGE_SIZE))

/-- Whether a text fits in an answer to a pull is decided by its length. -/
instance : DecidablePred small := fun a =>
  inferInstanceAs (Decidable ((ClipMsg.latest a.1 a.2).toFrame.size ≤ MAX_CLIP_MESSAGE_SIZE))

end Link

/-- What a writer is in the middle of writing. -/
def Writer.pen : Writer → Resend.Pen (String × ℕ)
  | pulling | ready => .idle
  | item text ms => .first (text, ms)
  | latest text ms => .again (text, ms)

/-- What an end is in the middle of writing. -/
def End.pen (e : End) : Resend.Pen (String × ℕ) :=
  match e.pump with
  | some (_, p) => p.writer.pen
  | none => .idle

namespace Link

/-- What `x` sends to the other end. This is the view in which the link is an instance of the
library: what one end has taken and sent, what is on the wire, and what the other end has seen. -/
def lane (s : Link) (x : Side) : Resend.Lane (String × ℕ) where
  taken := (s.ends x).taken
  sent := (s.ends x).sent
  last := (s.ends x).clip.lastSent
  pen := (s.ends x).pen
  seen := (s.ends x.other).got
  wire := (s.flight x).filterMap Packet.entry

end Link

/-- The frame of a packet says what its entry says. A packet without an entry is a pull. -/
def Packet.Good (k : Packet) : Prop :=
  match k.entry with
  | none => k.frame = ClipMsg.pullLatest.toFrame
  | some g => g.item.2 < 2 ^ 64 ∧ k.frame =
      (if g.again then ClipMsg.latest g.item.1 g.item.2
        else ClipMsg.item g.item.1 g.item.2).toFrame

namespace Link

/-- What holds of one direction of a link in every run. -/
structure Good (s : Link) (x : Side) : Prop where
  inv : Resend.Inv ok small (s.lane x)
  packets : ∀ k ∈ s.flight x, k.Good
  times : ∀ a ∈ (s.ends x).taken, a.2 < 2 ^ 64

/-- A link on which nothing was sent is in order. -/
lemma Good.init (x : Side) : Good .init x where
  inv := Resend.Inv.init
  packets := by simp [Link.init]
  times := by simp [Link.init, End.init]

/-- What one step does to one direction: a move of its lane, or none, and no packet or time that is
not as it should be. -/
structure Moved (s s' : Link) (x : Side) : Prop where
  lane : s'.lane x = s.lane x ∨ Resend.Move ok small (s.lane x) (s'.lane x)
  packets : ∀ k ∈ s'.flight x, k.Good
  times : ∀ a ∈ (s'.ends x).taken, a.2 < 2 ^ 64

/-- A side that moves keeps its lane in order. -/
lemma Moved.good {s s' : Link} {x : Side} (h : Good s x) (hm : Moved s s' x) : Good s' x where
  inv := by
    rcases hm.lane with he | hmove
    · rw [he]; exact h.inv
    · exact h.inv.move hmove
  packets := hm.packets
  times := hm.times

/-- A step that changes neither the sender's end, what it has in flight, nor what the receiver
got. -/
lemma Moved.of_same {s s' : Link} {x : Side} (h : Good s x) (he : s'.ends x = s.ends x)
    (hf : s'.flight x = s.flight x) (hg : (s'.ends x.other).got = (s.ends x.other).got) :
    Moved s s' x where
  lane := by left; simp only [Link.lane, he, hf, hg]
  packets := by rw [hf]; exact h.packets
  times := by rw [he]; exact h.times

/-- A step of an end that touches only its own clip state and pump. -/
lemma moved_setEnd {s : Link} {x : Side} {e : End} (hs : ∀ y, Good s y)
    (ht : e.taken = (s.ends x).taken) (hg : e.got = (s.ends x).got)
    (hl : s.lane x = (s.setEnd x e).lane x ∨
      Resend.Move ok small (s.lane x) ((s.setEnd x e).lane x)) (y : Side) :
    Moved s (s.setEnd x e) y := by
  refine Side.both x ?_ ?_ y
  · refine ⟨hl.imp Eq.symm id, (hs x).packets, ?_⟩
    simp only [setEnd, Function.update_self, ht]
    exact (hs x).times
  · exact .of_same (hs x.other) (by simp [setEnd]) rfl (by simp [setEnd, hg])

/-- Starting a pump loses what is in flight on earlier connections.

**Proof sketch.** The lane of this end stays as it is, with an idle pen. That of the other end loses
what is in flight on earlier connections, which is a part of its wire. -/
lemma moved_startPump {s : Link} {x : Side} {conn : ℕ} (hs : ∀ y, Good s y)
    (hp : (s.ends x).pump = none) (y : Side) : Moved s (s.startPump x conn) y := by
  refine Side.both x ?_ ?_ y
  · constructor
    · left
      simp [lane, startPump, End.pen, hp, Pump.start, Writer.pen]
    · intro k hk
      simp only [startPump, ne_eq, Side.ne_other, not_false_eq_true, Function.update_of_ne] at hk
      exact (hs x).packets k hk
    · simpa [startPump] using (hs x).times
  · constructor
    · right
      have hlane : (s.startPump x conn).lane x.other = { s.lane x.other with
          wire := ((s.flight x.other).filter fun k => conn ≤ k.conn).filterMap Packet.entry } := by
        simp [lane, startPump]
      rw [hlane]
      exact .lose _ (List.filter_sublist.filterMap _)
    · intro k hk
      simp only [startPump, Function.update_self] at hk
      exact (hs x.other).packets k (List.mem_filter.1 hk).1
    · simpa [startPump] using (hs x.other).times

/-- A pump's own step moves the lane of its end, and leaves the other one alone.

**Proof sketch.** By what a step of a pump can do: taking a text, writing an item, starting and
ending a re-delivery are the moves of a lane; the opening pull carries no entry; and a pump that
ends gives up its write. -/
lemma moved_stepPump {s s' : Link} {x : Side} {conn : ℕ} {p : Pump} {l : PumpLabel}
    (hs : ∀ y, Good s y) (hp : (s.ends x).pump = some (conn, p)) (hown : l.own = true)
    (h : s.stepPump x conn p l = some s') (y : Side) : Moved s s' y := by
  simp only [stepPump, Option.map_eq_some_iff, Prod.exists] at h
  obtain ⟨p', clip', out, hstep, rfl⟩ := h
  refine Side.both x ?_ ?_ y
  swap
  · exact .of_same (hs x.other) (by simp) (by simp) (by simp [setPump])
  have hpen : (s.ends x).pen = p.writer.pen := by simp [End.pen, hp]
  obtain ⟨hinv, hpackets, htimes⟩ := hs x
  have hmore : ∀ k : Packet, k.Good → ∀ k' ∈ s.flight x ++ [k], k'.Good := by
    intro k hk k' hk'
    rcases List.mem_append.1 hk' with hk' | hk'
    · exact hpackets k' hk'
    · rw [List.mem_singleton.1 hk']
      exact hk
  cases Pump.step_cases hstep with
  | pulled hw =>
    refine ⟨Or.inl ?_, ?_, ?_⟩
    · simp [lane, setPump, End.record, End.entry, End.pen, hp, hw, Writer.pen]
    · simpa using hmore _ (by simp [Packet.Good, End.entry, hw])
    · simpa [setPump, End.record, hw] using htimes
  | sent text ms hw =>
    have hfirst : (s.lane x).pen = .first (text, ms) := by simp [lane, hpen, hw, Writer.pen]
    have hms : ms < 2 ^ 64 := htimes (text, ms) (List.mem_of_getLast? (hinv.first _ hfirst).1)
    refine ⟨Or.inr ?_, ?_, ?_⟩
    · have := (Resend.Move.sent (text, ms) hfirst : Resend.Move ok small (s.lane x) _)
      simpa [lane, setPump, End.record, End.entry, End.pen, hw, Writer.pen] using this
    · simpa using hmore _ (by simp [-Nat.reducePow, Packet.Good, End.entry, hw, hms])
    · simpa [setPump, End.record, hw] using htimes
  | resent text ms hw =>
    have hagain : (s.lane x).pen = .again (text, ms) := by simp [lane, hpen, hw, Writer.pen]
    obtain ⟨i, -, hi⟩ := hinv.last _ (hinv.again _ hagain).1
    have hms : ms < 2 ^ 64 := htimes (text, ms) (List.mem_of_getElem? hi)
    refine ⟨Or.inr ?_, ?_, ?_⟩
    · have := (Resend.Move.resent (text, ms) hagain : Resend.Move ok small (s.lane x) _)
      simpa [lane, setPump, End.record, End.entry, End.pen, hw, Writer.pen] using this
    · simpa using hmore _ (by simp [-Nat.reducePow, Packet.Good, End.entry, hw, hms])
    · simpa [setPump, End.record, hw] using htimes
  | took text rest ms hw hq hfit =>
    have hidle : (s.lane x).pen = .idle := by simp [lane, hpen, hw, Writer.pen]
    have hms : ms < 2 ^ 64 := by simpa [PumpLabel.own] using hown
    refine ⟨Or.inr ?_, ?_, ?_⟩
    · have := (Resend.Move.take (text, ms) hidle hfit : Resend.Move ok small (s.lane x) _)
      simpa [lane, setPump, End.record, End.pen, hq, Writer.pen] using this
    · simpa using hpackets
    · intro a ha
      have ha' : a ∈ (s.ends x).taken ∨ a = (text, ms) := by
        simpa [setPump, End.record, hq] using ha
      rcases ha' with ha' | rfl
      · exact htimes a ha'
      · exact hms
  | refused text rest ms msg hw hq hfit =>
    have hidle : (s.lane x).pen = .idle := by simp [lane, hpen, hw, Writer.pen]
    have hms : ms < 2 ^ 64 := by simpa [PumpLabel.own] using hown
    refine ⟨Or.inr ?_, ?_, ?_⟩
    · have := (Resend.Move.refuse (text, ms) hidle (Nat.not_le.2 hfit) :
        Resend.Move ok small (s.lane x) _)
      simpa [lane, setPump, End.record, End.pen, hp, hq, Writer.pen] using this
    · simpa using hpackets
    · intro a ha
      have ha' : a ∈ (s.ends x).taken ∨ a = (text, ms) := by
        simpa [setPump, End.record, hq] using ha
      rcases ha' with ha' | rfl
      · exact htimes a ha'
      · exact hms
  | skipped pulls hw hpulls hlast =>
    refine ⟨Or.inl ?_, ?_, ?_⟩
    · simp [lane, setPump, End.record, End.pen, hp]
    · simpa using hpackets
    · simpa [setPump, End.record] using htimes
  | answered text ms pulls hw hpulls hlast hfit =>
    have hidle : (s.lane x).pen = .idle := by simp [lane, hpen, hw, Writer.pen]
    refine ⟨Or.inr ?_, ?_, ?_⟩
    · have := (Resend.Move.answer (text, ms) hidle hlast hfit : Resend.Move ok small (s.lane x) _)
      simpa [lane, setPump, End.record, End.pen, Writer.pen] using this
    · simpa using hpackets
    · simpa [setPump, End.record] using htimes
  | nudged f => simp [PumpLabel.own] at hown
  | received f text again => simp [PumpLabel.own] at hown
  | broke r e =>
    refine ⟨Or.inr ?_, ?_, ?_⟩
    · have := (Resend.Move.cut : Resend.Move ok small (s.lane x) _)
      simpa [lane, setPump, End.record, End.pen] using this
    · simpa using hpackets
    · simpa [setPump, End.record] using htimes
  | failed e e' =>
    refine ⟨Or.inr ?_, ?_, ?_⟩
    · have := (Resend.Move.cut : Resend.Move ok small (s.lane x) _)
      simpa [lane, setPump, End.record, End.pen] using this
    · simpa using hpackets
    · simpa [setPump, End.record] using htimes

/-- What a pump makes of a packet that is as it should be.

**Proof sketch.** The frame of the packet is decoded as the message that was encoded, whatever its
entry is. -/
lemma stepRead_good {k : Packet} (hk : k.Good) (p : Pump) (clip : Clip) :
    p.stepRead clip (.ok k.frame) = match k.entry with
      | none => (.inl { p with pulls := p.pulls + 1 }, clip, [])
      | some g => (.inl p, clip, [.event (.itemReceived g.item.1 g.again)]) := by
  unfold Packet.Good at hk
  cases he : k.entry with
  | none =>
    simp only [he] at hk
    rw [hk, Pump.stepRead_ok decodeClipMsg_pullLatest]
    rfl
  | some g =>
    simp only [he] at hk
    obtain ⟨hms, hf⟩ := hk
    cases hg : g.again with
    | true =>
      simp only [hg, if_true] at hf
      rw [hf, Pump.stepRead_ok (decodeClipMsg_latest _ hms)]
      simp [ClipMsg.latest, hg]
    | false =>
      simp only [hg, Bool.false_eq_true, if_false] at hf
      rw [hf, Pump.stepRead_ok (decodeClipMsg_item _ hms)]
      simp [ClipMsg.item, hg]

/-- A delivery moves the lane of the other end: it surfaces the packet's entry, if it has one.

**Proof sketch.** The reader of the pump says what a packet surfaces: nothing, an item or an answer
to a pull. In each case the lane of the other end moves by that one delivery, and the lane of this
end stays. -/
lemma moved_stepDeliver {s : Link} {x : Side} {conn : ℕ} {p : Pump} {k : Packet}
    {rest : List Packet} (hs : ∀ y, Good s y) (hp : (s.ends x).pump = some (conn, p))
    (hf : s.flight x.other = k :: rest) (y : Side) : Moved s (s.stepDeliver x conn p k rest) y := by
  have hk : k.Good := (hs x.other).packets k (by rw [hf]; exact List.mem_cons_self)
  have hrest : ∀ k' ∈ rest, k'.Good := fun k' hk' =>
    (hs x.other).packets k' (by rw [hf]; exact List.mem_cons_of_mem _ hk')
  have hread := stepRead_good hk p (s.ends x).clip
  cases he : k.entry with
  | none =>
    simp only [he] at hread
    refine Side.both x ⟨Or.inl ?_, ?_, ?_⟩ ⟨Or.inl ?_, ?_, ?_⟩ y
    · simp [lane, stepDeliver, hread, setPump, End.pen, hp]
    · simpa [stepDeliver] using (hs x).packets
    · simpa [stepDeliver, setPump] using (hs x).times
    · simp [lane, stepDeliver, hread, hf, he, setPump]
    · simpa [stepDeliver] using hrest
    · simpa [stepDeliver] using (hs x.other).times
  | some g =>
    simp only [he] at hread
    refine Side.both x ⟨Or.inl ?_, ?_, ?_⟩ ⟨Or.inr ?_, ?_, ?_⟩ y
    · simp [lane, stepDeliver, hread, setPump, End.pen, hp]
    · simpa [stepDeliver] using (hs x).packets
    · simpa [stepDeliver, setPump] using (hs x).times
    · have := (Resend.Move.see g (rest.filterMap Packet.entry) (by simp [lane, hf, he]) :
        Resend.Move ok small (s.lane x.other) _)
      simpa [lane, stepDeliver, hread, he, setPump] using this
    · simpa [stepDeliver] using hrest
    · simpa [stepDeliver] using (hs x.other).times

/-- **A step of the link is a move of each of its lanes, or none.**

**Proof sketch.** By the list of the steps. A step of a pump is answered by the lemma about the
pump, a delivery by the one about the reader, and the other steps change no lane or drop what was in
flight. -/
theorem lane_step {s s' : Link} {l : LinkLabel} (hs : ∀ y, Good s y) (h : s.step l = some s')
    (y : Side) : Moved s s' y := by
  cases step_cases h with
  | sent x text =>
    refine moved_setEnd hs (by rfl) (by rfl) (Or.inl ?_) y
    simp [lane, setEnd, End.pen]
  | dialed hp => exact .of_same (hs y) rfl rfl rfl
  | accepted conn hp hnew hd => exact moved_startPump hs hp y
  | established hp hnew hh => exact moved_startPump hs hp y
  | pumped x l conn p s' hp hown hs' => exact moved_stepPump hs hp hown hs' y
  | delivered x conn p k rest hp hf hk => exact moved_stepDeliver hs hp hf y
  | dropped x conn p hp =>
    refine moved_setEnd hs (by rfl) (by rfl) (Or.inr ?_) y
    have := (Resend.Move.cut : Resend.Move ok small (s.lane x) _)
    simpa [lane, setEnd, End.pen] using this
  | restarted x =>
    refine moved_setEnd hs (by rfl) (by rfl) (Or.inr ?_) y
    have := (Resend.Move.forget : Resend.Move ok small (s.lane x) _)
    simpa [lane, setEnd, End.pen] using this

/-- **The invariant of a lane holds of both lanes in every run.** -/
theorem reachable_inv {s : Link} (hs : Machine.Reachable step .init s) (x : Side) : Good s x :=
  Machine.reachable_invariant (I := fun s => ∀ x, Good s x) Good.init
    (fun _ _ _ hs h y => (lane_step hs h y).good (hs y)) hs x

/-! ## Writes that are cut -/

/-- The pump of `x` is in the middle of writing an item that would fit as a re-delivery too. -/
def Mid (s : Link) (x : Side) : Prop := ∃ a, (s.ends x).pen = .first a ∧ small a

/-- The step cuts a write: the pump of an end that is in the middle of writing an item is dropped,
or ends because its read or its write failed. -/
def Cuts (s : Link) : LinkLabel → Prop
  | .drop x | .restart x | .pump x (.read _) | .pump x (.writeError _) => Mid s x
  | _ => False

/-- Whether a step cuts no write, as far as the writer's state shows. A step that ends a pump cuts
no write unless the writer is in the middle of an item. -/
def cutsNothing (s : Link) : LinkLabel → Bool
  | .drop x | .restart x | .pump x (.read _) | .pump x (.writeError _) =>
    match (s.ends x).pen with
    | .first _ => false
    | _ => true
  | _ => true

/-- A label that is found to cut nothing is none that cuts a write.

**Proof sketch.** By the label. Each of those that can cut a write is found by the test of the
writer. -/
lemma not_cuts_of_cutsNothing (s : Link) (l : LinkLabel) (h : cutsNothing s l = true) :
    ¬ Cuts s l := by
  have key : ∀ x, (match (s.ends x).pen with | .first _ => false | _ => true) = true →
      ¬ Mid s x := by
    rintro x hx ⟨a, ha, -⟩
    simp [ha] at hx
  cases l with
  | drop x => exact key x h
  | restart x => exact key x h
  | pump x l =>
    cases l with
    | read r => exact key x h
    | writeError e => exact key x h
    | _ => exact not_false
  | _ => exact not_false

/-- A pump's own step goes on with the write its end is in the middle of, or is done with it.

**Proof sketch.** By the steps of the pump. Only two of them end a write of an item: the one that
completes it, which counts it as sent, and the one that fails, which would cut it. -/
lemma pen_stepPump {s s' : Link} {x y : Side} {conn : ℕ} {p : Pump} {l : PumpLabel}
    {a : String × ℕ} (hp : (s.ends x).pump = some (conn, p))
    (h : s.stepPump x conn p l = some s') (hcut : ¬ Cuts s (.pump x l))
    (hpen : (s.ends y).pen = .first a) (hsmall : small a) :
    (s'.ends y).pen = .first a ∨ (s'.ends y).sent ≠ (s.ends y).sent := by
  simp only [stepPump, Option.map_eq_some_iff, Prod.exists] at h
  obtain ⟨p', clip', out, hstep, rfl⟩ := h
  rcases eq_or_ne y x with rfl | hne
  swap
  · left
    simpa [Function.update_of_ne hne] using hpen
  have hw : p.writer.pen = .first a := by simpa [End.pen, hp] using hpen
  cases Pump.step_cases hstep with
  | sent text ms hw' =>
    right
    simp [End.record, hw']
  | pulled hw' => simp [hw', Writer.pen] at hw
  | resent text ms hw' => simp [hw', Writer.pen] at hw
  | took text rest ms hw' hq hfit => simp [hw', Writer.pen] at hw
  | refused text rest ms msg hw' hq hfit => simp [hw', Writer.pen] at hw
  | skipped pulls hw' hpulls hlast => simp [hw', Writer.pen] at hw
  | answered text ms pulls hw' hpulls hlast hfit => simp [hw', Writer.pen] at hw
  | nudged f => exact absurd ⟨a, hpen, hsmall⟩ hcut
  | received f text again => exact absurd ⟨a, hpen, hsmall⟩ hcut
  | broke r e => exact absurd ⟨a, hpen, hsmall⟩ hcut
  | failed e e' => exact absurd ⟨a, hpen, hsmall⟩ hcut

/-- A delivery leaves every end in the middle of the write it is in the middle of. -/
lemma pen_stepDeliver {s : Link} {x : Side} {conn : ℕ} {p : Pump} {k : Packet}
    {rest : List Packet} (hs : ∀ y, Good s y) (hp : (s.ends x).pump = some (conn, p))
    (hf : s.flight x.other = k :: rest) (y : Side) :
    ((s.stepDeliver x conn p k rest).ends y).pen = (s.ends y).pen := by
  have hk : k.Good := (hs x.other).packets k (by rw [hf]; exact List.mem_cons_self)
  rcases eq_or_ne y x with rfl | hne
  · cases he : k.entry with
    | none => simp [stepDeliver, stepRead_good hk, he, setPump, End.pen, hp]
    | some g => simp [stepDeliver, stepRead_good hk, he, setPump, End.pen, hp]
  · simp [stepDeliver, Function.update_of_ne hne]

/-- What is done to another end leaves the write of this one alone. -/
lemma pen_setEnd {s : Link} {x y : Side} {e : End} (hne : y ≠ x) :
    ((s.setEnd x e).ends y).pen = (s.ends y).pen := by
  simp [setEnd, Function.update_of_ne hne]

/-- A pump starts at an end that is in the middle of no write. -/
lemma pen_startPump {s : Link} {x y : Side} {conn : ℕ} {a : String × ℕ}
    (hp : (s.ends x).pump = none) (hpen : (s.ends y).pen = .first a) :
    ((s.startPump x conn).ends y).pen = .first a := by
  have hne : y ≠ x := by
    rintro rfl
    simp [End.pen, hp] at hpen
  simpa [startPump, Function.update_of_ne hne] using hpen

/-- A write in progress goes on, is done, or is cut.

**Proof sketch.** By the list of the steps. A step of the pump is the lemma before; dropping a pump,
or starting the session anew, would cut the write, and the others leave the writer alone. -/
lemma pen_step {s s' : Link} {l : LinkLabel} (hs : ∀ y, Good s y) (h : s.step l = some s')
    (hcut : ¬ Cuts s l) {y : Side} {a : String × ℕ} (hpen : (s.ends y).pen = .first a)
    (hsmall : small a) : (s'.ends y).pen = .first a ∨ (s'.ends y).sent ≠ (s.ends y).sent := by
  cases step_cases h with
  | sent x text =>
    left
    rcases eq_or_ne y x with rfl | hne
    · simpa [setEnd, End.pen] using hpen
    · rw [pen_setEnd hne, hpen]
  | dialed hp => exact Or.inl hpen
  | accepted conn hp hnew hd => exact Or.inl (pen_startPump hp hpen)
  | established hp hnew hh => exact Or.inl (pen_startPump hp hpen)
  | pumped x l conn p s' hp hown hs' => exact pen_stepPump hp hs' hcut hpen hsmall
  | delivered x conn p k rest hp hf hk => exact Or.inl ((pen_stepDeliver hs hp hf y).trans hpen)
  | dropped x conn p hp =>
    rcases eq_or_ne y x with rfl | hne
    · exact absurd ⟨a, hpen, hsmall⟩ hcut
    · exact Or.inl ((pen_setEnd hne).trans hpen)
  | restarted x =>
    rcases eq_or_ne y x with rfl | hne
    · exact absurd ⟨a, hpen, hsmall⟩ hcut
    · exact Or.inl ((pen_setEnd hne).trans hpen)

/-- A step that cuts no write keeps what the sender took. -/
lemma kept_step {s s' : Link} {l : LinkLabel} (hs : ∀ y, Good s y) (h : s.step l = some s')
    (hcut : ¬ Cuts s l) {y : Side} (hk : Resend.Kept ok small (s.lane y)) :
    Resend.Kept ok small (s'.lane y) := by
  rcases (lane_step hs h y).lane with he | hmove
  · rw [he]; exact hk
  · refine hk.move hmove ?_
    rintro ⟨hsent, a, hpen, hsmall, hidle⟩
    rcases pen_step hs h hcut hpen hsmall with hpen' | hne
    · rw [show (s'.lane y).pen = _ from hpen'] at hidle
      cases hidle
    · exact hne hsent

/-- **In a run that cuts no write, nothing the sender took is lost.**

**Proof sketch.** By induction on the run, together with the invariant of the lanes: a move that
cuts no write keeps what was taken. -/
theorem exec_kept {s : Link} {ls : List LinkLabel} (hrun : Machine.exec step .init ls = some s)
    (hcut : Machine.Meets step (fun s l => ¬ Cuts s l) .init ls) (x : Side) :
    Resend.Kept ok small (s.lane x) := by
  have key := Machine.exec_invariant (I := fun s => ∀ y, Good s y ∧ Resend.Kept ok small (s.lane y))
    (fun s l s' hI hc h y =>
      ⟨(lane_step (fun y => (hI y).1) h y).good (hI y).1,
        kept_step (fun y => (hI y).1) h hc (hI y).2⟩)
    (fun y => ⟨Good.init y, Resend.Kept.init⟩) hcut hrun
  exact (key x).2

end Link

end Duocb
