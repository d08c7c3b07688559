import Duocb.Net

set_option relaxedAutoImplicit false
set_option autoImplicit false

/-!
# The clipboard pump

One pump moves clipboard frames over one authenticated stream in both directions. Its writer takes
texts off the session's clip channel and answers the peer's pulls; its reader surfaces what
arrives. The clip channel and the memory of the last item sent outlive the pump, so a later pump of
the same session goes on with them.

Between two of its steps a pump waits: for a write to be taken by the stream, for a text or a nudge,
or for a frame. It can be dropped at each of these places, and what it was writing then is gone.

## Main definitions

* `Duocb.Clip` — the clip channel and the last item sent.
* `Duocb.Writer`, `Duocb.Pump` — where the writer is, and the pulls it has yet to answer.
* `Duocb.Pump.step` — one step of a pump.

## Main results

* `Duocb.Pump.step_cases` — everything a step can do.
-/

namespace Duocb

/-- What a session keeps across its connections: the texts in its clip channel, and the latest item
it sent with its send time. -/
structure Clip where
  queue : List String
  lastSent : Option (String × ℕ)
  deriving DecidableEq

/-- Where the writer is. It writes one frame at a time, and the text that it holds is no longer in
the clip channel. -/
inductive Writer where
  /-- Writing the pull that opens every stream. -/
  | pulling
  /-- Waiting for a text or for a nudge from the reader. -/
  | ready
  /-- Writing an item. -/
  | item (text : String) (sentAtMs : ℕ)
  /-- Writing a re-delivery. -/
  | latest (text : String) (sentAtMs : ℕ)
  deriving DecidableEq

/-- A pump: its writer, and the pulls its reader has received that were not answered yet. -/
structure Pump where
  writer : Writer
  pulls : ℕ
  deriving DecidableEq

/-- A pump on a stream that was just authenticated. -/
def Pump.start : Pump := ⟨.pulling, 0⟩

/-- The text whose item a writer is in the middle of writing. -/
def Writer.text? : Writer → Option String
  | item text _ => some text
  | _ => none

/-- What moves a pump. The reader and the writer move independently; the two meet in the count of
the pulls. -/
inductive PumpLabel where
  /-- The stream took the whole frame that was being written. -/
  | written
  /-- The writer takes the next text off the clip channel, at `nowMs`. -/
  | takeItem (nowMs : ℕ)
  /-- The writer takes a nudge. -/
  | takePull
  /-- The reader's read of a frame ends. -/
  | read (r : Except Error Frame)
  /-- The write in progress fails. -/
  | writeError (e : Error)

/-- How a step of a pump ends. -/
inductive PumpOut where
  | event (e : NetEvent)
  | frame (f : Frame)
  deriving DecidableEq

/-- What is left of a pump after a step: itself, or its result. -/
abbrev PumpState : Type := Pump ⊕ Except Error Unit

/-- The message shown for a text that was refused. -/
def notSent (e : Error) : String :=
  s!"Not sent — {e.display} (limit {MAX_CLIP_MESSAGE_SIZE / 1024} KiB)"

namespace Pump

/-- The write in progress is done. An item that is written in full is the last one sent, and is
confirmed only now. -/
def stepWritten (p : Pump) (clip : Clip) : Option (PumpState × Clip × List PumpOut) :=
  match p.writer with
  | .pulling => some (.inl { p with writer := .ready }, clip, [.frame ClipMsg.pullLatest.toFrame])
  | .ready => none
  | .item text sentAtMs =>
    some (.inl { p with writer := .ready }, { clip with lastSent := some (text, sentAtMs) },
      [.frame (ClipMsg.item text sentAtMs).toFrame, .event .itemSent])
  | .latest text sentAtMs =>
    some (.inl { p with writer := .ready }, clip, [.frame (ClipMsg.latest text sentAtMs).toFrame])

/-- The writer takes a text: it starts to write its item, or reports that the item does not fit. The
size is checked before anything is written. -/
def stepItem (p : Pump) (clip : Clip) (nowMs : ℕ) : Option (PumpState × Clip × List PumpOut) :=
  match p.writer, clip.queue with
  | .ready, text :: rest =>
    match encodeClipMsg (.item text nowMs) with
    | .error e => some (.inl p, { clip with queue := rest }, [.event (.error (notSent e))])
    | .ok _ => some (.inl { p with writer := .item text nowMs }, { clip with queue := rest }, [])
  | _, _ => none

/-- The writer takes a nudge: it re-delivers the last item sent, if there is one and it fits. A pull
is answered at most once, and with nothing if nothing was sent. -/
def stepPull (p : Pump) (clip : Clip) : Option (PumpState × Clip × List PumpOut) :=
  match p.writer, p.pulls with
  | .ready, pulls + 1 =>
    match clip.lastSent with
    | none => some (.inl { p with pulls := pulls }, clip, [])
    | some (text, sentAtMs) =>
      match encodeClipMsg (.latest text sentAtMs) with
      | .error _ => some (.inl { p with pulls := pulls }, clip, [])
      | .ok _ => some (.inl ⟨.latest text sentAtMs, pulls⟩, clip, [])
  | _, _ => none

/-- The reader's read ends: it surfaces what it got, nudges the writer, or ends the pump. A pull is
counted for the writer, and a frame that cannot be read ends the pump. -/
def stepRead (p : Pump) (clip : Clip) (r : Except Error Frame) :
    PumpState × Clip × List PumpOut :=
  match withContext r "clipboard stream closed" >>= decodeClipMsg with
  | .error e => (.inr (.error e), clip, [])
  | .ok msg =>
    match msg.body with
    | .item text _ => (.inl p, clip, [.event (.itemReceived text false)])
    | .pullLatest => (.inl { p with pulls := p.pulls + 1 }, clip, [])
    | .latest text _ => (.inl p, clip, [.event (.itemReceived text true)])

/-- What the reader makes of a frame that decodes. -/
lemma stepRead_ok {f : Frame} {m : ClipMsg} (h : decodeClipMsg f = .ok m) (p : Pump)
    (clip : Clip) : p.stepRead clip (.ok f) = match m.body with
      | .item text _ => (.inl p, clip, [.event (.itemReceived text false)])
      | .pullLatest => (.inl { p with pulls := p.pulls + 1 }, clip, [])
      | .latest text _ => (.inl p, clip, [.event (.itemReceived text true)]) := by
  have hd : (withContext (.ok f) "clipboard stream closed" >>= decodeClipMsg) = .ok m := h
  unfold stepRead
  rw [hd]

/-- What the write in progress is called in an error. -/
def writeContext : Writer → Option String
  | .pulling => some "writing resume pull"
  | .ready => none
  | .item _ _ => some "writing clipboard item"
  | .latest _ _ => some "writing resume re-delivery"

/-- One step of a pump. The two halves are in one process, so that the pump ends with either of
them. -/
def step (p : Pump) (clip : Clip) : PumpLabel → Option (PumpState × Clip × List PumpOut)
  | .written => p.stepWritten clip
  | .takeItem nowMs => p.stepItem clip nowMs
  | .takePull => p.stepPull clip
  | .read r => some (p.stepRead clip r)
  | .writeError e =>
    (writeContext p.writer).map fun what => (.inr (.error (e.context what)), clip, [])

/-! ## What a step can do -/

/-- **Everything a step of a pump can do.** It is the step function read as a relation, one
constructor for each of its outcomes. -/
inductive Stepped (p : Pump) (clip : Clip) :
    PumpLabel → PumpState → Clip → List PumpOut → Prop where
  /-- The opening pull is written. -/
  | pulled (hw : p.writer = .pulling) :
      Stepped p clip .written (.inl { p with writer := .ready }) clip
        [.frame ClipMsg.pullLatest.toFrame]
  /-- An item is written, and only now it is the last one sent. -/
  | sent (text : String) (ms : ℕ) (hw : p.writer = .item text ms) :
      Stepped p clip .written (.inl { p with writer := .ready })
        { clip with lastSent := some (text, ms) }
        [.frame (ClipMsg.item text ms).toFrame, .event .itemSent]
  /-- A re-delivery is written. -/
  | resent (text : String) (ms : ℕ) (hw : p.writer = .latest text ms) :
      Stepped p clip .written (.inl { p with writer := .ready }) clip
        [.frame (ClipMsg.latest text ms).toFrame]
  /-- A text is taken off the channel and fits. -/
  | took (text : String) (rest : List String) (ms : ℕ) (hw : p.writer = .ready)
      (hq : clip.queue = text :: rest)
      (hfit : (ClipMsg.item text ms).toFrame.size ≤ MAX_CLIP_MESSAGE_SIZE) :
      Stepped p clip (.takeItem ms) (.inl { p with writer := .item text ms })
        { clip with queue := rest } []
  /-- A text is taken off the channel and refused. -/
  | refused (text : String) (rest : List String) (ms : ℕ) (e : Error) (hw : p.writer = .ready)
      (hq : clip.queue = text :: rest)
      (hfit : MAX_CLIP_MESSAGE_SIZE < (ClipMsg.item text ms).toFrame.size) :
      Stepped p clip (.takeItem ms) (.inl p) { clip with queue := rest }
        [.event (.error (notSent e))]
  /-- A pull is answered by nothing. -/
  | skipped (pulls : ℕ) (hw : p.writer = .ready) (hp : p.pulls = pulls + 1)
      (hlast : ∀ text ms, clip.lastSent = some (text, ms) →
        MAX_CLIP_MESSAGE_SIZE < (ClipMsg.latest text ms).toFrame.size) :
      Stepped p clip .takePull (.inl { p with pulls := pulls }) clip []
  /-- A pull starts to be answered. -/
  | answered (text : String) (ms pulls : ℕ) (hw : p.writer = .ready) (hp : p.pulls = pulls + 1)
      (hlast : clip.lastSent = some (text, ms))
      (hfit : (ClipMsg.latest text ms).toFrame.size ≤ MAX_CLIP_MESSAGE_SIZE) :
      Stepped p clip .takePull (.inl ⟨.latest text ms, pulls⟩) clip []
  /-- The peer pulls. -/
  | nudged (f : Frame) :
      Stepped p clip (.read (.ok f)) (.inl { p with pulls := p.pulls + 1 }) clip []
  /-- The peer's text is surfaced. -/
  | received (f : Frame) (text : String) (again : Bool) :
      Stepped p clip (.read (.ok f)) (.inl p) clip [.event (.itemReceived text again)]
  /-- The pump ends at a read. -/
  | broke (r : Except Error Frame) (e : Error) :
      Stepped p clip (.read r) (.inr (.error e)) clip []
  /-- The pump ends at a write. -/
  | failed (e e' : Error) : Stepped p clip (.writeError e) (.inr (.error e')) clip []

/-- A clipboard frame that is not encoded is too large. -/
lemma encodeClipMsg_error {m : ClipMsg} {e : Error} (h : encodeClipMsg m = .error e) :
    MAX_CLIP_MESSAGE_SIZE < m.toFrame.size := by
  unfold encodeClipMsg encodeLengthPrefixed at h
  split at h
  · assumption
  · simp at h

/-- A clipboard frame that is encoded is written as it is, and fits. -/
lemma encodeClipMsg_ok {m : ClipMsg} {f : Frame} (h : encodeClipMsg m = .ok f) :
    f = m.toFrame ∧ m.toFrame.size ≤ MAX_CLIP_MESSAGE_SIZE :=
  encodeLengthPrefixed_ok.1 h

/-- The inversion rule of the pump.

**Proof sketch.** By the label, and for each of them by the state of its half of the pump. -/
theorem step_cases {p : Pump} {clip clip' : Clip} {l : PumpLabel} {s : PumpState}
    {out : List PumpOut} (h : p.step clip l = some (s, clip', out)) :
    Stepped p clip l s clip' out := by
  cases l with
  | written =>
    simp only [step, stepWritten] at h
    cases hw : p.writer with
    | pulling =>
      simp only [hw, Option.some.injEq, Prod.mk.injEq] at h
      obtain ⟨rfl, rfl, rfl⟩ := h
      exact .pulled hw
    | ready => simp [hw] at h
    | item text ms =>
      simp only [hw, Option.some.injEq, Prod.mk.injEq] at h
      obtain ⟨rfl, rfl, rfl⟩ := h
      exact .sent text ms hw
    | latest text ms =>
      simp only [hw, Option.some.injEq, Prod.mk.injEq] at h
      obtain ⟨rfl, rfl, rfl⟩ := h
      exact .resent text ms hw
  | takeItem nowMs =>
    simp only [step, stepItem] at h
    split at h
    · rename_i text rest hw hq
      split at h
      · rename_i e henc
        simp only [Option.some.injEq, Prod.mk.injEq] at h
        obtain ⟨rfl, rfl, rfl⟩ := h
        exact .refused text rest nowMs _ hw hq (encodeClipMsg_error henc)
      · rename_i f henc
        simp only [Option.some.injEq, Prod.mk.injEq] at h
        obtain ⟨rfl, rfl, rfl⟩ := h
        exact .took text rest nowMs hw hq (encodeClipMsg_ok henc).2
    · simp at h
  | takePull =>
    simp only [step, stepPull] at h
    split at h
    · rename_i pulls hw hp
      split at h
      · rename_i hlast
        simp only [Option.some.injEq, Prod.mk.injEq] at h
        obtain ⟨rfl, rfl, rfl⟩ := h
        exact .skipped pulls hw hp (by simp [hlast])
      · rename_i text ms hlast
        split at h
        · rename_i e henc
          simp only [Option.some.injEq, Prod.mk.injEq] at h
          obtain ⟨rfl, rfl, rfl⟩ := h
          refine .skipped pulls hw hp fun text' ms' hl => ?_
          rw [hlast, Option.some.injEq, Prod.mk.injEq] at hl
          rw [← hl.1, ← hl.2]
          exact encodeClipMsg_error henc
        · rename_i f henc
          simp only [Option.some.injEq, Prod.mk.injEq] at h
          obtain ⟨rfl, rfl, rfl⟩ := h
          exact .answered text ms pulls hw hp hlast (encodeClipMsg_ok henc).2
    · simp at h
  | read r =>
    simp only [step, stepRead, Option.some.injEq] at h
    cases r with
    | error e =>
      obtain ⟨rfl, rfl, rfl⟩ := by simpa only [Prod.mk.injEq] using h
      exact .broke _ _
    | ok f =>
      split at h
      · obtain ⟨rfl, rfl, rfl⟩ := by simpa only [Prod.mk.injEq] using h
        exact .broke _ _
      · split at h
        · obtain ⟨rfl, rfl, rfl⟩ := by simpa only [Prod.mk.injEq] using h
          exact .received f _ false
        · obtain ⟨rfl, rfl, rfl⟩ := by simpa only [Prod.mk.injEq] using h
          exact .nudged f
        · obtain ⟨rfl, rfl, rfl⟩ := by simpa only [Prod.mk.injEq] using h
          exact .received f _ true
  | writeError e =>
    simp only [step] at h
    cases hc : writeContext p.writer with
    | none => simp [hc] at h
    | some what =>
      simp only [hc, Option.map_some, Option.some.injEq, Prod.mk.injEq] at h
      obtain ⟨rfl, rfl, rfl⟩ := h
      exact .failed _ _

end Pump

end Duocb
