import Duocb.Card.Minting
import Duocb.Net.Link

set_option relaxedAutoImplicit false
set_option autoImplicit false

/-!
# The card exchange

The payload step of a card setup. Each side writes its card, reads the other's, finishes its stream
and waits for the end of the other's. Since a side finishes its stream only after it has read the
other's card, the end of the stream proves that the other side may be left alone.

Streams are bytes here: a write hands over some bytes of a frame, a read takes some bytes of what is
there, and a connection that is closed may take what is still on its way with it.

## Main definitions

* `Duocb.Exchange`, `Duocb.Exchange.step` — one side, whatever its stream answers.
* `Duocb.CardLink`, `Duocb.CardLink.step` — two sides over bounded streams.

## Main results

* `Duocb.Exchange.reads_offer` — a side that returns a card has read one frame that offers it, and
  at most `MAX_TRAILING_BYTES` after it.
* `Duocb.CardLink.Inv.step` — every step of two sides keeps the books of their streams.
* `Duocb.CardLink.exchange_close_safe` — a side that returns leaves the other with its card;
  no run gets stuck before both have returned; and no run goes on forever.
-/

namespace Duocb

/-- How many bytes are read after the offer before the peer's end of stream is given up. -/
def MAX_TRAILING_BYTES : ℕ := 1024

/-- The offers of a card exchange: they are written as objects, and read by a given reader of their
JSON. -/
def CardOffer.readBy (fromSlice : Bytes → Except Error CardOffer) : Serde CardOffer where
  toVec m := .ok (utf8 m.toFrame.render)
  fromSlice := fromSlice
  version := CardOffer.version

/-- Decode an offer from the bytes of one frame. -/
def decodeCardOfferBytes (fromSlice : Bytes → Except Error CardOffer) (data : Bytes) :
    Except Error CardOffer :=
  (CardOffer.readBy fromSlice).decodeLengthPrefixed MAX_CONTROL_MESSAGE_SIZE "CardOffer" data

/-! ## One side -/

/-- Where a side of the exchange is. The phases are the awaits of the source: each one waits for one
answer of its stream. -/
inductive Exchange where
  /-- It writes the rest of its offer. -/
  | writing (rest : Bytes)
  | flushing
  /-- It reads the length of the peer's offer, -/
  | readingLength (got : Bytes)
  /-- and its body. -/
  | readingBody (lenBuf got : Bytes)
  /-- It finishes its stream, with the peer's card in hand, -/
  | finishing (card : IdentityCard)
  /-- and waits for the end of the peer's. -/
  | draining (card : IdentityCard) (trailing : Bytes)
  | returned (r : Except Error IdentityCard)
  deriving DecidableEq

/-- What the streams of a side answer. How many bytes a call moves is up to the streams, as long as
it is not more than was asked for. -/
inductive IoLabel where
  /-- Some bytes were written. -/
  | wrote (n : ℕ)
  | flushed
  /-- Some bytes were read; none, at the end of the stream. -/
  | read (bs : Bytes)
  | shut
  /-- The operation failed. -/
  | failed (e : Error)

/-- The bytes that an answer brings. -/
def IoLabel.bytes : IoLabel → Bytes
  | read bs => bs
  | _ => []

namespace Exchange

/-- A side that begins. -/
def start (ownCard : IdentityCard) : Exchange :=
  match encodeCardOffer (.new ownCard.encode) with
  | .error e => returned (.error (e.context "encoding this device's identity card"))
  | .ok frame => writing frame.wire

section Step

variable (N : Nostr) (fromSlice : Bytes → Except Error CardOffer)

/-- The peer's card, from the bytes of its offer. -/
def accept (data : Bytes) : Except Error IdentityCard := do
  let offer ← withContext (decodeCardOfferBytes fromSlice data) "decoding the peer's identity card"
  withContext (IdentityCard.parse N offer.card) "the peer offered an invalid identity card"

/-- The peer's offer has been read. -/
def afterBody (data : Bytes) : Exchange :=
  match accept N fromSlice data with
  | .ok card => finishing card
  | .error e => returned (.error e)

/-- The length of the peer's offer has been read, as far as `got`. Four bytes make a length. One
that is too large ends the exchange before its body is read. -/
def afterLength (got : Bytes) : Exchange :=
  if got.length < 4 then readingLength got
  else
    let len := fromBe32 got
    if MAX_CONTROL_MESSAGE_SIZE < len then
      returned (.error ((Error.msg s!"Message length too large: {len} bytes").context
        "reading the peer's identity card"))
    else if len = 0 then afterBody N fromSlice got
    else readingBody got []

/-- The error of a read that the stream cut off. -/
def readError (e : Error) (what : String) : Exchange :=
  returned (.error ((e.context what).context "reading the peer's identity card"))

/-- One step of a side. Each phase takes the answers of its own operation, and a failure of the
stream ends the exchange with the error of that operation. -/
def step : Exchange → IoLabel → Option Exchange
  | writing rest, .wrote n =>
    if 0 < n ∧ n ≤ rest.length then
      some (if n = rest.length then flushing else writing (rest.drop n))
    else none
  | writing _, .failed e =>
    some (returned (.error (e.context "sending this device's identity card")))
  | flushing, .flushed => some (readingLength [])
  | flushing, .failed e =>
    some (returned (.error (e.context "flushing this device's identity card")))
  | readingLength got, .read bs =>
    if bs = [] then some (readError Wire.unexpectedEof "Failed to read message length")
    else if bs.length ≤ 4 - got.length then some (afterLength N fromSlice (got ++ bs))
    else none
  | readingLength _, .failed e => some (readError e "Failed to read message length")
  | readingBody lenBuf got, .read bs =>
    if bs = [] then some (readError Wire.unexpectedEof "Failed to read message body")
    else if bs.length ≤ fromBe32 lenBuf - got.length then
      some (if (got ++ bs).length < fromBe32 lenBuf then readingBody lenBuf (got ++ bs)
        else afterBody N fromSlice (lenBuf ++ (got ++ bs)))
    else none
  | readingBody _ _, .failed e => some (readError e "Failed to read message body")
  | finishing card, .shut => some (draining card [])
  | finishing _, .failed e =>
    some (returned (.error (e.context "finishing the identity-card stream")))
  | draining card trailing, .read bs =>
    if bs = [] then some (returned (.ok card))
    else if bs.length ≤ MAX_TRAILING_BYTES - trailing.length then
      some (if (trailing ++ bs).length < MAX_TRAILING_BYTES then draining card (trailing ++ bs)
        else returned (.ok card))
    else none
  -- the wait is best-effort
  | draining card _, .failed _ => some (returned (.ok card))
  | _, _ => none

/-- A step of a side, and what it reads. -/
def loud (e : Exchange) (l : IoLabel) : Option (Exchange × Bytes) :=
  (e.step N fromSlice l).map fun e' => (e', l.bytes)

/-- **Everything a step of a side can do.** It is the step function read as a relation, with the
guards of each branch as premises. -/
inductive Stepped : Exchange → IoLabel → Exchange → Prop where
  | wrote (rest : Bytes) (n : ℕ) (hn : 0 < n) (hlt : n < rest.length) :
      Stepped (.writing rest) (.wrote n) (.writing (rest.drop n))
  | wroteAll (rest : Bytes) : Stepped (.writing rest) (.wrote rest.length) .flushing
  | flushed : Stepped .flushing .flushed (.readingLength [])
  | lengthRead (got bs : Bytes) (hne : bs ≠ []) (hle : bs.length ≤ 4 - got.length) :
      Stepped (.readingLength got) (.read bs) (afterLength N fromSlice (got ++ bs))
  | lengthCut (got : Bytes) (e : Error) :
      Stepped (.readingLength got) (.read []) (.returned (.error e))
  | bodyRead (lenBuf got bs : Bytes) (hne : bs ≠ [])
      (hlt : (got ++ bs).length < fromBe32 lenBuf) :
      Stepped (.readingBody lenBuf got) (.read bs) (.readingBody lenBuf (got ++ bs))
  | bodyDone (lenBuf got bs : Bytes) (hne : bs ≠ [])
      (hle : bs.length ≤ fromBe32 lenBuf - got.length)
      (hall : ¬ (got ++ bs).length < fromBe32 lenBuf) :
      Stepped (.readingBody lenBuf got) (.read bs) (afterBody N fromSlice (lenBuf ++ (got ++ bs)))
  | bodyCut (lenBuf got : Bytes) (e : Error) :
      Stepped (.readingBody lenBuf got) (.read []) (.returned (.error e))
  | shut (card : IdentityCard) : Stepped (.finishing card) .shut (.draining card [])
  | trailed (card : IdentityCard) (trailing bs : Bytes) (hne : bs ≠ [])
      (hlt : (trailing ++ bs).length < MAX_TRAILING_BYTES) :
      Stepped (.draining card trailing) (.read bs) (.draining card (trailing ++ bs))
  | trailedAll (card : IdentityCard) (trailing bs : Bytes)
      (hle : bs.length ≤ MAX_TRAILING_BYTES - trailing.length) :
      Stepped (.draining card trailing) (.read bs) (.returned (.ok card))
  | lost (card : IdentityCard) (trailing : Bytes) (e : Error) :
      Stepped (.draining card trailing) (.failed e) (.returned (.ok card))
  /-- Before a side waits for the end of the peer's stream, an operation that fails ends it. -/
  | failed (s : Exchange) (e e' : Error) (hdraining : ∀ card trailing, s ≠ .draining card trailing)
      (hreturned : ∀ r, s ≠ .returned r) : Stepped s (.failed e) (.returned (.error e'))

/-- What holds of a side and of all it has read: the offer, and what came after it. It ties the
phase to the bytes: what was read so far is a part of a frame, or a whole frame that was accepted
and what trails it. -/
inductive Read : Exchange → Bytes → Prop where
  | writing (rest : Bytes) : Read (.writing rest) []
  | flushing : Read .flushing []
  | readingLength (got : Bytes) (short : got.length < 4) : Read (.readingLength got) got
  | readingBody (lenBuf got : Bytes) (short : got.length < fromBe32 lenBuf) :
      Read (.readingBody lenBuf got) (lenBuf ++ got)
  | finishing (card : IdentityCard) (data : Bytes) (accepted : accept N fromSlice data = .ok card) :
      Read (.finishing card) data
  | draining (card : IdentityCard) (data trailing : Bytes)
      (accepted : accept N fromSlice data = .ok card)
      (short : trailing.length < MAX_TRAILING_BYTES) :
      Read (.draining card trailing) (data ++ trailing)
  | returned (card : IdentityCard) (data trailing : Bytes)
      (accepted : accept N fromSlice data = .ok card)
      (short : trailing.length ≤ MAX_TRAILING_BYTES) :
      Read (.returned (.ok card)) (data ++ trailing)
  | failed (e : Error) (data : Bytes) : Read (.returned (.error e)) data

end Step

section Run

variable {N : Nostr} {fromSlice : Bytes → Except Error CardOffer}

/-- **The inversion rule of the exchange**: every step is one of those above.

**Proof sketch.** By cases on the phase of the exchange and on the label, and for a read on whether
it is complete. -/
theorem step_cases {e e' : Exchange} {l : IoLabel} (h : e.step N fromSlice l = some e') :
    Stepped N fromSlice e l e' := by
  cases e with
  | writing rest =>
    cases l with
    | wrote n =>
      simp only [step] at h
      split_ifs at h with hn hall
      · obtain rfl := Option.some.inj h
        rw [hall]
        exact .wroteAll rest
      · obtain rfl := Option.some.inj h
        exact .wrote rest n hn.1 (by omega)
    | failed e =>
      obtain rfl := Option.some.inj h
      exact .failed _ _ _ (by simp) (by simp)
    | _ => cases h
  | flushing =>
    cases l with
    | flushed =>
      obtain rfl := Option.some.inj h
      exact .flushed
    | failed e =>
      obtain rfl := Option.some.inj h
      exact .failed _ _ _ (by simp) (by simp)
    | _ => cases h
  | readingLength got =>
    cases l with
    | read bs =>
      simp only [step] at h
      split_ifs at h with hnil hle
      · obtain rfl := Option.some.inj h
        rw [hnil]
        exact .lengthCut got _
      · obtain rfl := Option.some.inj h
        exact .lengthRead got bs hnil hle
    | failed e =>
      obtain rfl := Option.some.inj h
      exact .failed _ _ _ (by simp) (by simp)
    | _ => cases h
  | readingBody lenBuf got =>
    cases l with
    | read bs =>
      simp only [step] at h
      split_ifs at h with hnil hle hlt
      · obtain rfl := Option.some.inj h
        rw [hnil]
        exact .bodyCut lenBuf got _
      · obtain rfl := Option.some.inj h
        exact .bodyRead lenBuf got bs hnil hlt
      · obtain rfl := Option.some.inj h
        exact .bodyDone lenBuf got bs hnil hle hlt
    | failed e =>
      obtain rfl := Option.some.inj h
      exact .failed _ _ _ (by simp) (by simp)
    | _ => cases h
  | finishing card =>
    cases l with
    | shut =>
      obtain rfl := Option.some.inj h
      exact .shut card
    | failed e =>
      obtain rfl := Option.some.inj h
      exact .failed _ _ _ (by simp) (by simp)
    | _ => cases h
  | draining card trailing =>
    cases l with
    | read bs =>
      simp only [step] at h
      split_ifs at h with hnil hle hlt
      · obtain rfl := Option.some.inj h
        exact .trailedAll card trailing bs (by simp [hnil])
      · obtain rfl := Option.some.inj h
        exact .trailed card trailing bs hnil hlt
      · obtain rfl := Option.some.inj h
        exact .trailedAll card trailing bs hle
    | failed e =>
      obtain rfl := Option.some.inj h
      exact .lost card trailing e
    | _ => cases h
  | returned r => cases l <;> cases h

/-- What stands behind the body of the offer has been read. -/
lemma afterBody_read (data : Bytes) : Read N fromSlice (afterBody N fromSlice data) data := by
  unfold afterBody
  cases h : accept N fromSlice data with
  | ok card => exact .finishing card data h
  | error e => exact .failed e data

/-- What stands behind the length of the offer has been read. -/
lemma afterLength_read (got : Bytes) : Read N fromSlice (afterLength N fromSlice got) got := by
  unfold afterLength
  split_ifs with h
  · exact .readingLength got h
  · dsimp only
    split_ifs with hmax hzero
    · exact .failed _ _
    · exact afterBody_read got
    · conv => arg 4; rw [← List.append_nil got]
      exact .readingBody got [] (Nat.pos_of_ne_zero hzero)

/-- **A step keeps what holds of a side and of what it has read.**

**Proof sketch.** Only reads add to what was read. While the offer is read they are cut to what it
still lacks, so the offer is complete exactly when it is handed to the parser; after it they are cut
to what is left of `MAX_TRAILING_BYTES`. -/
lemma Read.step {e e' : Exchange} {read out : Bytes} {l : IoLabel} (h : Read N fromSlice e read)
    (hstep : loud N fromSlice e l = some (e', out)) : Read N fromSlice e' (read ++ out) := by
  obtain ⟨e'', hs, he⟩ := Option.map_eq_some_iff.1 hstep
  obtain ⟨rfl, rfl⟩ := Prod.mk.inj he
  cases step_cases hs with
  | wrote rest n hn hlt =>
    cases h
    exact .writing _
  | wroteAll rest =>
    cases h
    exact .flushing
  | flushed =>
    cases h
    exact .readingLength [] (by decide)
  | lengthRead got bs hne hle =>
    cases h
    exact afterLength_read _
  | bodyRead lenBuf got bs hne hlt =>
    cases h
    rw [List.append_assoc]
    exact .readingBody _ _ hlt
  | bodyDone lenBuf got bs hne hle hall =>
    cases h
    rw [List.append_assoc]
    exact afterBody_read _
  | shut card =>
    cases h with
    | finishing card data accepted => exact .draining card read [] accepted (by decide)
  | trailed card trailing bs hne hlt =>
    cases h with
    | draining card data trailing accepted short =>
      rw [List.append_assoc]
      exact .draining card data _ accepted hlt
  | trailedAll card trailing bs hle =>
    cases h with
    | draining card data trailing accepted short =>
      rw [List.append_assoc]
      refine .returned card data _ accepted ?_
      rw [List.length_append]
      show trailing.length + bs.length ≤ MAX_TRAILING_BYTES
      omega
  | lost card trailing e =>
    cases h with
    | draining card data trailing accepted short =>
      rw [show (IoLabel.failed e).bytes = [] from rfl, List.append_nil]
      exact .returned card data trailing accepted (Nat.le_of_lt short)
  | lengthCut | bodyCut | failed => exact .failed _ _

/-- How many more steps a side can take at most. It bounds the bytes that are left to write and to
read, and the steps between them. -/
def fuel : Exchange → ℕ
  | writing rest => rest.length + (MAX_CONTROL_MESSAGE_SIZE + MAX_TRAILING_BYTES + 11)
  | flushing => MAX_CONTROL_MESSAGE_SIZE + MAX_TRAILING_BYTES + 10
  | readingLength got => (4 - got.length) + (MAX_CONTROL_MESSAGE_SIZE + MAX_TRAILING_BYTES + 5)
  | readingBody lenBuf got => (fromBe32 lenBuf - got.length) + (MAX_TRAILING_BYTES + 4)
  | finishing _ => MAX_TRAILING_BYTES + 3
  | draining _ trailing => (MAX_TRAILING_BYTES - trailing.length) + 2
  | returned _ => 1

/-- Behind the body, a few bytes are read at most. -/
lemma afterBody_fuel (data : Bytes) :
    (afterBody N fromSlice data).fuel ≤ MAX_TRAILING_BYTES + 3 := by
  unfold afterBody
  split <;> simp [fuel]

/-- Behind the length, a whole body and a few bytes are read at most. -/
lemma afterLength_fuel {got : Bytes} (hle : got.length ≤ 4) : (afterLength N fromSlice got).fuel ≤
    (4 - got.length) + (MAX_CONTROL_MESSAGE_SIZE + MAX_TRAILING_BYTES + 5) := by
  have hbody := @afterBody_fuel N fromSlice got
  unfold afterLength
  split_ifs
  · exact Nat.le_refl _
  · dsimp only
    split_ifs
    · simp only [fuel]
      omega
    · omega
    · simp only [fuel, List.length_nil]
      omega

/-- **A side takes finitely many steps.**

**Proof sketch.** By cases on the step. The measure adds up what may still be written and read; a
read that is complete goes over to a phase with less. -/
lemma fuel_lt {e e' : Exchange} {l : IoLabel} (h : e.step N fromSlice l = some e') :
    e'.fuel < e.fuel := by
  cases step_cases h with
  | wrote rest n hn hlt =>
    simp only [fuel, List.length_drop]
    omega
  | wroteAll rest =>
    simp only [fuel]
    omega
  | flushed =>
    simp only [fuel, List.length_nil]
    omega
  | lengthRead got bs hne hle =>
    have hpos := List.length_pos_iff.2 hne
    have hmore := @afterLength_fuel N fromSlice (got ++ bs) (by rw [List.length_append]; omega)
    rw [List.length_append] at hmore
    refine Nat.lt_of_le_of_lt hmore ?_
    simp only [fuel]
    omega
  | bodyRead lenBuf got bs hne hlt =>
    have hpos := List.length_pos_iff.2 hne
    simp only [fuel, List.length_append] at hlt ⊢
    omega
  | bodyDone lenBuf got bs hne hle hall =>
    refine Nat.lt_of_le_of_lt (afterBody_fuel _) ?_
    simp only [fuel]
    omega
  | shut card =>
    simp only [fuel, List.length_nil]
    omega
  | trailed card trailing bs hne hlt =>
    have hpos := List.length_pos_iff.2 hne
    simp only [fuel, List.length_append] at hlt ⊢
    omega
  | trailedAll | lost | lengthCut | bodyCut =>
    simp only [fuel]
    omega
  | failed e err err' hdraining hreturned =>
    cases e with
    | returned r => exact absurd rfl (hreturned r)
    | _ =>
      simp only [fuel]
      omega

/-- An exchange that has just begun has read nothing. -/
lemma start_read (ownCard : IdentityCard) : Read N fromSlice (start ownCard) [] := by
  unfold start
  cases encodeCardOffer (.new ownCard.encode) with
  | error e => exact .failed _ _
  | ok frame => exact .writing _

/-- **Whoever the peer is**, a side that returns a card has read one frame that offers it, which the
verifying parse accepted, and at most `MAX_TRAILING_BYTES` after it.

**Proof sketch.** The invariant says at each phase what was read so far, and is kept by every step.
A side that has returned a card holds the frame and the few bytes behind it. -/
theorem reads_offer {ownCard card : IdentityCard} {labels : List IoLabel} {read : Bytes}
    (hrun : Machine.run (loud N fromSlice) (start ownCard) labels =
      some (.returned (.ok card), read)) :
    ∃ data trailing offer, read = data ++ trailing ∧ trailing.length ≤ MAX_TRAILING_BYTES ∧
      decodeCardOfferBytes fromSlice data = .ok offer ∧
        IdentityCard.parse N offer.card = .ok card := by
  have hinv := Machine.run_invariant (I := Read N fromSlice)
    (fun _ _ _ _ _ h hstep => h.step hstep) (start_read ownCard) hrun
  cases hinv with
  | returned card data trailing accepted short =>
    simp only [accept, bind_eq_ok, withContext_eq_ok] at accepted
    obtain ⟨offer, hoffer, hparse⟩ := accepted
    exact ⟨data, trailing, offer, rfl, short, hoffer, hparse⟩

end Run

end Exchange

/-! ## The offer of a card -/

section Offer

variable {N : Nostr} {fromSlice : Bytes → Except Error CardOffer}

/-- **An offer is accepted as the card it was made from.**

**Proof sketch.** The length in front of the frame is that of its body and within the limit. The
body is read back as the offer, and the card in it parses as the card itself. -/
theorem accept_wire (hN : N.Lawful) {card : IdentityCard} (hcard : card.Verified N)
    (hJson : fromSlice (utf8 (CardOffer.new card.encode).toFrame.render) = .ok (.new card.encode)) :
    Exchange.accept N fromSlice (CardOffer.new card.encode).toFrame.wire = .ok card := by
  have hfits := IdentityCard.offer_fits hcard
  have hlen : (utf8 (CardOffer.new card.encode).toFrame.render).length =
      (CardOffer.new card.encode).toFrame.size := length_utf8 _
  have hdecode : decodeCardOfferBytes fromSlice (CardOffer.new card.encode).toFrame.wire =
      .ok (.new card.encode) := by
    refine Serde.decodeLengthPrefixed_eq_ok.2 ⟨_, _, rfl, length_be32 _, ?_, ?_, hJson, rfl⟩
    · rw [hlen]
      exact fromBe32_be32 (Nat.lt_of_le_of_lt hfits (by decide))
    · rw [hlen]
      exact hfits
  simp only [Exchange.accept, bind_eq_ok, withContext_eq_ok]
  exact ⟨_, hdecode, IdentityCard.parse_encode hN hcard⟩

end Offer

/-! ## Two sides -/

/-- A stream from one side to the other: the bytes that are on their way, and whether it was
finished. -/
structure CardPipe where
  buffer : Bytes
  finished : Bool

/-- Two sides of an exchange, the stream each of them writes, and whether it has closed the
connection. -/
structure CardLink where
  side : Side → Exchange
  pipe : Side → CardPipe
  closed : Side → Bool

/-- What moves two sides of an exchange. The scheduler picks the side and the number of bytes; a
side may also find that the other one has closed. -/
inductive CardLinkLabel where
  /-- A side writes some bytes. -/
  | write (x : Side) (n : ℕ)
  | flush (x : Side)
  /-- A side reads some bytes. -/
  | read (x : Side) (n : ℕ)
  /-- A side reads the end of the other's stream. -/
  | eof (x : Side)
  /-- A side finishes its stream. -/
  | finish (x : Side)
  /-- A side that has returned closes the connection. -/
  | close (x : Side)
  /-- An operation of a side fails, since the other has closed the connection. -/
  | lose (x : Side) (e : Error)

namespace CardLink

/-- A side has moved. -/
def setSide (s : CardLink) (x : Side) (e : Exchange) : CardLink :=
  { s with side := Function.update s.side x e }

/-- The stream of a side has changed. -/
def setPipe (s : CardLink) (x : Side) (p : CardPipe) : CardLink :=
  { s with pipe := Function.update s.pipe x p }

/-- Two sides that begin to exchange their cards. -/
def start (cards : Side → IdentityCard) : CardLink :=
  ⟨fun x => .start (cards x), fun _ => ⟨[], false⟩, fun _ => false⟩

section Step

variable (N : Nostr) (fromSlice : Bytes → Except Error CardOffer) (capacity : ℕ)

/-- One step of two sides. What a side writes goes into a bounded pipe, and what it reads comes out
of the other side's. A step that its own stream would not allow yet is not taken. -/
def step (s : CardLink) : CardLinkLabel → Option CardLink
  | .write x n =>
    match s.side x with
    | .writing rest =>
      if (s.pipe x).buffer.length + n ≤ capacity then
        ((s.side x).step N fromSlice (.wrote n)).map fun e =>
          (s.setSide x e).setPipe x { s.pipe x with buffer := (s.pipe x).buffer ++ rest.take n }
      else none
    | _ => none
  | .flush x => ((s.side x).step N fromSlice .flushed).map (s.setSide x)
  | .read x n =>
    let p := s.pipe x.other
    if 0 < n ∧ n ≤ p.buffer.length then
      ((s.side x).step N fromSlice (.read (p.buffer.take n))).map fun e =>
        (s.setSide x e).setPipe x.other { p with buffer := p.buffer.drop n }
    else none
  | .eof x =>
    if (s.pipe x.other).finished ∧ (s.pipe x.other).buffer = [] then
      ((s.side x).step N fromSlice (.read [])).map (s.setSide x)
    else none
  | .finish x =>
    ((s.side x).step N fromSlice .shut).map fun e =>
      (s.setSide x e).setPipe x { s.pipe x with finished := true }
  | .close x =>
    match s.side x with
    | .returned _ =>
      if s.closed x then none else some { s with closed := Function.update s.closed x true }
    | _ => none
  | .lose x e =>
    if s.closed x.other then ((s.side x).step N fromSlice (.failed e)).map (s.setSide x) else none

end Step

/-! ### The books of the streams -/

/-- The bytes of the offer that a side makes. -/
def offer (cards : Side → IdentityCard) (x : Side) : Bytes :=
  (CardOffer.new (cards x).encode).toFrame.wire

end CardLink

namespace Exchange

/-- What a side still has to write of its offer. -/
def rest : Exchange → Bytes
  | writing rest => rest
  | _ => []

/-- What a side has read of an offer. -/
def got (offer : Bytes) : Exchange → Bytes
  | writing _ | flushing => []
  | readingLength got => got
  | readingBody lenBuf got => lenBuf ++ got
  | finishing _ | draining _ _ | returned _ => offer

/-- A side that has finished its stream. -/
def Finished : Exchange → Prop
  | draining _ _ | returned _ => True
  | _ => False

/-- Where a side may be that exchanges cards with an honest one: it never fails, and it holds the
other's card as soon as it has read it. -/
inductive Honest (card : IdentityCard) : Exchange → Prop where
  | writing (rest : Bytes) (some_ : rest ≠ []) : Honest card (.writing rest)
  | flushing : Honest card .flushing
  | readingLength (got : Bytes) (short : got.length < 4) : Honest card (.readingLength got)
  | readingBody (lenBuf got : Bytes) (length_eq : lenBuf.length = 4)
      (short : got.length < fromBe32 lenBuf) : Honest card (.readingBody lenBuf got)
  | finishing : Honest card (.finishing card)
  | draining : Honest card (.draining card [])
  | returned : Honest card (.returned (.ok card))

end Exchange

section Honest

variable {N : Nostr} {fromSlice : Bytes → Except Error CardOffer}

/-- A frame is never empty. -/
lemma Frame.size_pos (f : Frame) : 0 < f.size := by
  have hmark : ("\x7b" : String).utf8ByteSize = 1 := by decide
  simp only [Frame.size, Frame.render, String.utf8ByteSize_append, hmark]
  omega

/-- The first four bytes of a frame are its length. -/
lemma lenBuf_eq {f : Frame} {lenBuf more : Bytes} (h : lenBuf ++ more = f.wire)
    (hlen : lenBuf.length = 4) : lenBuf = KeyAuth.be32 f.size ∧ more = utf8 f.render :=
  List.append_inj h (by rw [hlen, length_be32])

namespace Exchange

variable {card : IdentityCard} {e e' : Exchange} {bs more : Bytes}

/-- The length of an offer that has been read in full. -/
lemma fromBe32_offer (hcard : card.Verified N) {lenBuf : Bytes}
    (h : lenBuf ++ more = (CardOffer.new card.encode).toFrame.wire) (hlen : lenBuf.length = 4) :
    fromBe32 lenBuf = (CardOffer.new card.encode).toFrame.size := by
  have hfits := IdentityCard.offer_fits hcard
  unfold MAX_CONTROL_MESSAGE_SIZE at hfits
  rw [(lenBuf_eq h hlen).1, fromBe32_be32 (by omega)]

/-- **Reading some of an honest offer** leaves a side where an honest side may be, with what it has
read.

**Proof sketch.** A read is cut to what the part at hand still lacks. When the length is complete it
is that of the offer, which is within the cap; when the body is complete the whole offer has been
read, and it is accepted. After the offer there is nothing to read. -/
lemma Honest.read (hN : N.Lawful) (hcard : card.Verified N)
    (hJson : fromSlice (utf8 (CardOffer.new card.encode).toFrame.render) = .ok (.new card.encode))
    (h : e.Honest card) (hbs : bs ≠ [])
    (hbooks : e.got (CardOffer.new card.encode).toFrame.wire ++ (bs ++ more) =
      (CardOffer.new card.encode).toFrame.wire)
    (hstep : e.step N fromSlice (.read bs) = some e') :
    (e'.Honest card ∧ e'.got (CardOffer.new card.encode).toFrame.wire =
        e.got (CardOffer.new card.encode).toFrame.wire ++ bs) ∧
      (¬ e.Finished ∧ e.rest = []) ∧ ¬ e'.Finished ∧ e'.rest = [] := by
  have hfits := IdentityCard.offer_fits hcard
  have hpos := Frame.size_pos (CardOffer.new card.encode).toFrame
  have haccept := accept_wire hN hcard hJson
  have hoffer := fun {lenBuf more : Bytes} => @fromBe32_offer N card more hcard lenBuf
  have hwire := length_wire (CardOffer.new card.encode).toFrame
  generalize (CardOffer.new card.encode).toFrame = f at hfits hpos haccept hoffer hwire hbooks ⊢
  cases h with
  | writing | flushing | finishing | returned => cases hstep
  | readingLength got short =>
    simp only [Exchange.step, if_neg hbs] at hstep
    split_ifs at hstep with hle
    obtain rfl := Option.some.inj hstep
    replace hbooks : (got ++ bs) ++ more = f.wire := by rw [List.append_assoc]; exact hbooks
    unfold afterLength
    split_ifs with hlt
    · exact ⟨⟨.readingLength _ hlt, rfl⟩, ⟨id, rfl⟩, id, rfl⟩
    · have hlen : (got ++ bs).length = 4 := by
        rw [List.length_append] at hlt ⊢
        omega
      have hsize := hoffer hbooks hlen
      dsimp only
      rw [if_neg (by rw [hsize]; omega), if_neg (by rw [hsize]; omega)]
      exact ⟨⟨.readingBody _ [] hlen (by rw [hsize]; exact hpos), List.append_nil _⟩, ⟨id, rfl⟩, id,
        rfl⟩
  | readingBody lenBuf got length_eq short =>
    simp only [Exchange.step, if_neg hbs] at hstep
    split_ifs at hstep with hle hlt
    · obtain rfl := Option.some.inj hstep
      exact ⟨⟨.readingBody _ _ length_eq hlt, (List.append_assoc _ _ _).symm⟩, ⟨id, rfl⟩, id, rfl⟩
    · -- the body is complete, and nothing comes after it
      obtain rfl := Option.some.inj hstep
      have hall : lenBuf ++ ((got ++ bs) ++ more) = f.wire := by
        rw [← hbooks]
        simp [Exchange.got]
      have hsize := hoffer hall length_eq
      have hnone : more = [] := by
        have hlen := congrArg List.length hall
        simp only [List.length_append, length_eq, hwire] at hlen hlt
        rw [← List.length_eq_zero_iff]
        omega
      rw [hnone, List.append_nil] at hall
      rw [hall]
      have hafter : afterBody N fromSlice f.wire = .finishing card := by
        unfold afterBody
        rw [haccept]
      rw [hafter]
      refine ⟨⟨.finishing, ?_⟩, ⟨id, rfl⟩, id, rfl⟩
      show f.wire = lenBuf ++ got ++ bs
      rw [List.append_assoc, hall]
  | draining =>
    exfalso
    have hlen := congrArg List.length hbooks
    simp only [Exchange.got, List.length_append] at hlen
    exact hbs (List.length_eq_zero_iff.1 (by omega))

/-- A side that reads the end of a stream has read the whole offer before it.

**Proof sketch.** By the phase of the side. While it reads the offer some of it is missing, so that
the end cannot come; it comes when only the trailing bytes are waited for. -/
lemma Honest.eof (hcard : card.Verified N) (h : e.Honest card)
    (hbooks : e.got (CardOffer.new card.encode).toFrame.wire =
      (CardOffer.new card.encode).toFrame.wire)
    (hstep : e.step N fromSlice (.read []) = some e') :
    e = .draining card [] ∧ e' = .returned (.ok card) := by
  have hoffer := fun {lenBuf more : Bytes} => @fromBe32_offer N card more hcard lenBuf
  have hwire := length_wire (CardOffer.new card.encode).toFrame
  generalize (CardOffer.new card.encode).toFrame = f at *
  cases h with
  | writing | flushing | finishing | returned => cases hstep
  | readingLength got short =>
    have hlen := congrArg List.length hbooks
    simp only [Exchange.got, hwire] at hlen
    omega
  | readingBody lenBuf got length_eq short =>
    have hsize := hoffer hbooks length_eq
    have hlen := congrArg List.length hbooks
    simp only [Exchange.got, List.length_append, hwire] at hlen
    omega
  | draining => exact ⟨rfl, (Option.some.inj hstep).symm⟩

end Exchange

end Honest

namespace CardLink

/-- What holds of one of two sides: it is where an honest side may be; what the other has read of
its offer, what is on its way, and what it still has to write make up the offer; its stream is
finished when it has read the other's card; and it returns only after the other's was. -/
structure Good (cards : Side → IdentityCard) (s : CardLink) (x : Side) : Prop where
  honest : (s.side x).Honest (cards x.other)
  books : (s.side x.other).got (offer cards x) ++ ((s.pipe x).buffer ++ (s.side x).rest) =
    offer cards x
  finished : (s.pipe x).finished = true ↔ (s.side x).Finished
  returns : ∀ r, s.side x = .returned r → (s.side x.other).Finished
  closed : s.closed x = true → ∃ r, s.side x = .returned r

/-- What holds of two sides. -/
def Inv (cards : Side → IdentityCard) (s : CardLink) : Prop := ∀ x, s.Good cards x

variable {N : Nostr} {fromSlice : Bytes → Except Error CardOffer} {capacity : ℕ}
  {cards : Side → IdentityCard} {s s' : CardLink} {l : CardLinkLabel}

/-- Two sides that have written nothing yet keep the books.

**Proof sketch.** Nothing was written or read, so each clause is about an offer that is still to be
written in full. -/
lemma Inv.of_writing (hside : ∀ x, s.side x = .writing (offer cards x))
    (hpipe : ∀ x, s.pipe x = ⟨[], false⟩) (hclosed : ∀ x, s.closed x = false) : s.Inv cards := by
  intro x
  constructor
  · rw [hside]
    refine .writing _ fun hnil => ?_
    have hlen := length_wire (CardOffer.new (cards x).encode).toFrame
    rw [show (CardOffer.new (cards x).encode).toFrame.wire = [] from hnil, List.length_nil] at hlen
    omega
  · rw [hside, hside, hpipe]
    rfl
  · rw [hside, hpipe]
    simp [Exchange.Finished]
  · intro r hr
    rw [hside] at hr
    cases hr
  · intro hc
    rw [hclosed] at hc
    cases hc

/-- A side with a card begins to write its offer. -/
lemma start_writing {card : IdentityCard} (hcard : card.Verified N) :
    Exchange.start card = .writing (CardOffer.new card.encode).toFrame.wire := by
  have henc : encodeCardOffer (.new card.encode) = .ok (CardOffer.new card.encode).toFrame :=
    encodeLengthPrefixed_ok.2 ⟨rfl, IdentityCard.offer_fits hcard⟩
  rw [Exchange.start, henc]

-- the offer of a card is too large to be computed
attribute [local irreducible] Exchange.start

/-- Two sides that begin keep the books. -/
lemma Inv.start (hcards : ∀ x, (cards x).Verified N) : (start cards).Inv cards :=
  .of_writing (fun x => start_writing (hcards x)) (fun _ => rfl) fun _ => rfl

/-- A side that moves keeps the books, when it accounts for what it has read and for what it has
left to write.

**Proof sketch.** The books of the side that moves are what it has read and what it has still to
write, and the other side's are the same two seen from the other end. -/
lemma Inv.moved (h : s.Inv cards) (x : Side) (hother : s'.side x.other = s.side x.other)
    (hclosed : s'.closed = s.closed) (hreturned : ∀ r, s.side x ≠ .returned r)
    (honest : (s'.side x).Honest (cards x.other))
    (hwritten : (s'.pipe x).buffer ++ (s'.side x).rest = (s.pipe x).buffer ++ (s.side x).rest)
    (hread : (s'.side x).got (offer cards x.other) ++ (s'.pipe x.other).buffer =
      (s.side x).got (offer cards x.other) ++ (s.pipe x.other).buffer)
    (hfinished : (s'.pipe x).finished = true ↔ (s'.side x).Finished)
    (hfinished' : (s'.pipe x.other).finished = (s.pipe x.other).finished)
    (hmono : (s.side x).Finished → (s'.side x).Finished)
    (hreturns : ∀ r, s'.side x = .returned r → (s.side x.other).Finished) : s'.Inv cards := by
  refine Side.both x ⟨honest, ?_, hfinished, ?_, ?_⟩ ⟨?_, ?_, ?_, ?_, ?_⟩
  · rw [hother, hwritten]
    exact (h x).books
  · rw [hother]
    exact hreturns
  · rw [hclosed]
    intro hc
    obtain ⟨r, hr⟩ := (h x).closed hc
    exact absurd hr (hreturned r)
  · rw [hother]
    exact (h x.other).honest
  · have hbooks := (h x.other).books
    rw [Side.other_other] at hbooks ⊢
    rw [hother, ← List.append_assoc, hread, List.append_assoc, hbooks]
  · rw [hother, hfinished']
    exact (h x.other).finished
  · rw [hother, Side.other_other]
    intro r hr
    have hdone := (h x.other).returns r hr
    rw [Side.other_other] at hdone
    exact hmono hdone
  · rw [hclosed, hother]
    exact (h x.other).closed

/-- A side that is set is there, -/
@[simp] lemma setSide_side_self (s : CardLink) (x : Side) (e : Exchange) :
    (s.setSide x e).side x = e := Function.update_self ..

/-- and the other side is as it was. -/
@[simp] lemma setSide_side_other (s : CardLink) (x : Side) (e : Exchange) :
    (s.setSide x e).side x.other = s.side x.other := Function.update_of_ne (Side.other_ne x) ..

/-- Setting a side touches no pipe. -/
@[simp] lemma setSide_pipe (s : CardLink) (x : Side) (e : Exchange) :
    (s.setSide x e).pipe = s.pipe := rfl

/-- Setting a pipe touches no side. -/
@[simp] lemma setPipe_side (s : CardLink) (x : Side) (p : CardPipe) :
    (s.setPipe x p).side = s.side := rfl

/-- A pipe that is set is there, -/
@[simp] lemma setPipe_pipe_self (s : CardLink) (x : Side) (p : CardPipe) :
    (s.setPipe x p).pipe x = p := Function.update_self ..

/-- and the other pipe is as it was, -/
@[simp] lemma setPipe_pipe_other (s : CardLink) (x : Side) (p : CardPipe) :
    (s.setPipe x p).pipe x.other = s.pipe x.other := Function.update_of_ne (Side.other_ne x) ..

/-- whichever of the two was set. -/
@[simp] lemma setPipe_other_pipe (s : CardLink) (x : Side) (p : CardPipe) :
    (s.setPipe x.other p).pipe x = s.pipe x := Function.update_of_ne (Side.ne_other x) ..

/-- A side that reads nothing keeps the books, when it accounts for what it has left to write.

**Proof sketch.** It is the general lemma about a side that moves, where what was read and what is
in the other pipe stay as they are. -/
lemma Inv.moved_unread (h : s.Inv cards) (x : Side) {e : Exchange} {p : CardPipe}
    (hreturned : ∀ r, s.side x ≠ .returned r) (honest : e.Honest (cards x.other))
    (hwritten : p.buffer ++ e.rest = (s.pipe x).buffer ++ (s.side x).rest)
    (hread : e.got (offer cards x.other) = (s.side x).got (offer cards x.other))
    (hfinished : p.finished = true ↔ e.Finished)
    (hmono : (s.side x).Finished → e.Finished)
    (hreturns : ∀ r, e = .returned r → (s.side x.other).Finished) :
    ((s.setSide x e).setPipe x p).Inv cards := by
  refine h.moved x (by simp) rfl hreturned ?_ ?_ ?_ ?_ ?_ ?_ ?_
  · simpa using honest
  · simpa using hwritten
  · simp [hread]
  · simpa using hfinished
  · simp
  · simpa using hmono
  · simpa using hreturns

/-- The same for a side that touches no stream: it has as much to write and to finish as before. -/
lemma Inv.moved_alone (h : s.Inv cards) (x : Side) {e : Exchange}
    (hreturned : ∀ r, s.side x ≠ .returned r) (honest : e.Honest (cards x.other))
    (hrest : e.rest = (s.side x).rest)
    (hread : e.got (offer cards x.other) = (s.side x).got (offer cards x.other))
    (hfinished : (s.side x).Finished ↔ e.Finished)
    (hreturns : ∀ r, e = .returned r → (s.side x.other).Finished) : (s.setSide x e).Inv cards := by
  have hpipe : (s.setSide x e).setPipe x (s.pipe x) = s.setSide x e := by
    simp [setPipe, setSide]
  rw [← hpipe]
  exact h.moved_unread x hreturned honest (by rw [hrest]) hread
    ((h x).finished.trans hfinished) hfinished.1 hreturns

/-- The books of what a side reads. -/
lemma Inv.reading (h : s.Inv cards) (x : Side) :
    (s.side x).got (offer cards x.other) ++
      ((s.pipe x.other).buffer ++ (s.side x.other).rest) = offer cards x.other := by
  have hbooks := (h x.other).books
  rwa [Side.other_other] at hbooks

/-- **Every step of two sides keeps the books.**

**Proof sketch.** By cases on the step. A side that writes moves bytes from its offer to its pipe,
one that reads moves them from the other pipe to what it has got, and a frame that is complete is
the other side's offer. -/
theorem Inv.step (hN : N.Lawful) (hcards : ∀ x, (cards x).Verified N)
    (hJson : ∀ x, fromSlice (utf8 (CardOffer.new (cards x).encode).toFrame.render) =
      .ok (.new (cards x).encode)) (h : s.Inv cards)
    (hstep : s.step N fromSlice capacity l = some s') : s'.Inv cards := by
  cases l with
  | write x n =>
    simp only [CardLink.step] at hstep
    split at hstep
    · rename_i rest hside
      split_ifs at hstep
      obtain ⟨e, he, rfl⟩ := Option.map_eq_some_iff.1 hstep
      rw [hside] at he
      simp only [Exchange.step] at he
      split_ifs at he with hn hall
      · -- the offer is written
        obtain rfl := Option.some.inj he
        refine h.moved_unread x (by simp [hside]) .flushing ?_ ?_ ?_ ?_ (by simp)
        · simp [hside, Exchange.rest, hall]
        · simp [hside, Exchange.got]
        · simpa [hside, Exchange.Finished] using (h x).finished
        · simp [hside, Exchange.Finished]
      · obtain rfl := Option.some.inj he
        refine h.moved_unread x (by simp [hside]) (.writing _ fun hnil => ?_) ?_ ?_ ?_ ?_ (by simp)
        · have := List.drop_eq_nil_iff.1 hnil
          omega
        · simp [hside, Exchange.rest]
        · simp [hside, Exchange.got]
        · simpa [hside, Exchange.Finished] using (h x).finished
        · simp [hside, Exchange.Finished]
    · cases hstep
  | flush x =>
    obtain ⟨e, he, rfl⟩ := Option.map_eq_some_iff.1 hstep
    cases hside : s.side x with
    | flushing =>
      rw [hside] at he
      obtain rfl := Option.some.inj he
      refine h.moved_alone x (by simp [hside]) (.readingLength [] (by decide)) ?_ ?_ ?_ (by simp)
      · simp [hside, Exchange.rest]
      · simp [hside, Exchange.got]
      · simp [hside, Exchange.Finished]
    | _ => rw [hside] at he; cases he
  | read x n =>
    simp only [CardLink.step] at hstep
    split_ifs at hstep with hn
    obtain ⟨e, he, rfl⟩ := Option.map_eq_some_iff.1 hstep
    -- what is read, and what stays on its way
    have hsplit := List.take_append_drop n (s.pipe x.other).buffer
    have hbs : (s.pipe x.other).buffer.take n ≠ [] := by
      intro hnil
      have hlen := congrArg List.length hnil
      rw [List.length_take, List.length_nil] at hlen
      omega
    have hbooks := h.reading x
    rw [← hsplit, List.append_assoc] at hbooks
    obtain ⟨⟨honest, hgot⟩, ⟨hnot, hrest⟩, hnot', hrest'⟩ :=
      (h x).honest.read hN (hcards x.other) (hJson x.other) hbs hbooks he
    have hreturned : ∀ r, s.side x ≠ .returned r := by
      intro r hr
      rw [hr] at hnot
      exact hnot trivial
    refine h.moved x (by simp) rfl hreturned ?_ ?_ ?_ ?_ ?_ ?_ ?_
    · simpa using honest
    · simp [hrest, hrest']
    · rw [setPipe_side, setSide_side_self, setPipe_pipe_self]
      show e.got (offer cards x.other) ++ _ = _
      rw [show e.got (offer cards x.other) = _ from hgot, List.append_assoc, hsplit]
      rfl
    · have hf := (h x).finished
      simp only [setPipe_side, setSide_side_self, setPipe_other_pipe, setSide_pipe]
      exact ⟨fun hd => absurd (hf.1 hd) hnot, fun hd => absurd hd hnot'⟩
    · simp
    · exact fun hd => absurd hd hnot
    · intro r hr
      rw [setPipe_side, setSide_side_self] at hr
      rw [hr] at hnot'
      exact absurd trivial hnot'
  | eof x =>
    simp only [CardLink.step] at hstep
    split_ifs at hstep with hend
    obtain ⟨e, he, rfl⟩ := Option.map_eq_some_iff.1 hstep
    have hfin := (h x.other).finished.1 hend.1
    have hnone : (s.side x.other).rest = [] := by
      cases hside : s.side x.other <;> rw [hside] at hfin <;> first | exact hfin.elim | rfl
    have hbooks := h.reading x
    rw [hend.2, hnone, List.append_nil, List.append_nil] at hbooks
    obtain ⟨hside, rfl⟩ := (h x).honest.eof (hcards x.other) hbooks he
    refine h.moved_alone x (by simp [hside]) .returned ?_ ?_ ?_ fun _ _ => hfin
    · simp [hside, Exchange.rest]
    · simp [hside, Exchange.got]
    · simp [hside, Exchange.Finished]
  | finish x =>
    obtain ⟨e, he, rfl⟩ := Option.map_eq_some_iff.1 hstep
    have honest := (h x).honest
    cases hside : s.side x with
    | finishing card =>
      rw [hside] at he honest
      obtain rfl := Option.some.inj he
      cases honest
      refine h.moved_unread x (by simp [hside]) .draining ?_ ?_ ?_ ?_ (by simp)
      · simp [hside, Exchange.rest]
      · simp [hside, Exchange.got]
      · simp [Exchange.Finished]
      · simp [hside, Exchange.Finished]
    | _ => rw [hside] at he; cases he
  | close x =>
    simp only [CardLink.step] at hstep
    split at hstep
    · rename_i r hside
      split_ifs at hstep
      obtain rfl := Option.some.inj hstep
      intro y
      refine ⟨(h y).honest, (h y).books, (h y).finished, (h y).returns, fun hc => ?_⟩
      by_cases hy : y = x
      · exact ⟨r, by rw [hy]; exact hside⟩
      · exact (h y).closed (by simpa [Function.update_of_ne hy] using hc)
    · cases hstep
  | lose x e =>
    simp only [CardLink.step] at hstep
    split_ifs at hstep with hc
    obtain ⟨e', he, rfl⟩ := Option.map_eq_some_iff.1 hstep
    -- the other side has returned, so this one has its card already
    obtain ⟨r, hr⟩ := (h x.other).closed hc
    have hfin := (h x.other).returns r hr
    rw [Side.other_other] at hfin
    have honest := (h x).honest
    cases hside : s.side x with
    | draining card trailing =>
      rw [hside] at he honest
      obtain rfl := Option.some.inj he
      cases honest
      refine h.moved_alone x (by simp [hside]) .returned ?_ ?_ ?_ fun _ _ => ?_
      · simp [hside, Exchange.rest]
      · simp [hside, Exchange.got]
      · simp [hside, Exchange.Finished]
      · rw [hr]
        trivial
    | returned r => rw [hside] at he; cases he
    | _ => rw [hside] at hfin; exact hfin.elim

/-! ### No run gets stuck, or goes on forever -/

/-- How many more steps two sides can take at most. -/
def fuel (s : CardLink) : ℕ :=
  let left (x : Side) := (s.side x).fuel + if s.closed x then 0 else 1
  left .host + left .dialer

/-- A side that moves makes the measure smaller. -/
lemma fuel_lt_of_moved {x : Side} {e : Exchange} {l : IoLabel} {pipe : Side → CardPipe}
    (h : (s.side x).step N fromSlice l = some e) :
    CardLink.fuel ⟨Function.update s.side x e, pipe, s.closed⟩ < s.fuel := by
  have hless := Exchange.fuel_lt h
  cases x with
  | host =>
    simp only [fuel, Function.update_self]
    rw [Function.update_of_ne (by decide)]
    omega
  | dialer =>
    simp only [fuel, Function.update_self]
    rw [Function.update_of_ne (by decide)]
    omega

/-- **Two sides take finitely many steps.**

**Proof sketch.** By cases on the step; of the two sides and the two pipes, only one side and one
pipe change. -/
lemma fuel_lt (hstep : s.step N fromSlice capacity l = some s') : s'.fuel < s.fuel := by
  cases l with
  | write x n =>
    simp only [CardLink.step] at hstep
    split at hstep
    · split_ifs at hstep
      obtain ⟨e, he, rfl⟩ := Option.map_eq_some_iff.1 hstep
      exact fuel_lt_of_moved he
    · cases hstep
  | flush x =>
    obtain ⟨e, he, rfl⟩ := Option.map_eq_some_iff.1 hstep
    exact fuel_lt_of_moved he
  | read x n =>
    simp only [CardLink.step] at hstep
    split_ifs at hstep
    obtain ⟨e, he, rfl⟩ := Option.map_eq_some_iff.1 hstep
    exact fuel_lt_of_moved he
  | eof x =>
    simp only [CardLink.step] at hstep
    split_ifs at hstep
    obtain ⟨e, he, rfl⟩ := Option.map_eq_some_iff.1 hstep
    exact fuel_lt_of_moved he
  | finish x =>
    obtain ⟨e, he, rfl⟩ := Option.map_eq_some_iff.1 hstep
    exact fuel_lt_of_moved he
  | close x =>
    simp only [CardLink.step] at hstep
    split at hstep
    · split_ifs at hstep with hc
      obtain rfl := Option.some.inj hstep
      cases x <;> simp [fuel, hc]
    · cases hstep
  | lose x e =>
    simp only [CardLink.step] at hstep
    split_ifs at hstep
    obtain ⟨e', he, rfl⟩ := Option.map_eq_some_iff.1 hstep
    exact fuel_lt_of_moved he

/-- Some step can be taken. -/
def Able (N : Nostr) (fromSlice : Bytes → Except Error CardOffer) (capacity : ℕ) (s : CardLink) :
    Prop := ∃ l s', s.step N fromSlice capacity l = some s'

/-- A side that has something to write can write it: the whole offer fits in its stream.

**Proof sketch.** What a side has written and what it has left are its offer, which fits into a
pipe. So there is room for one more byte. -/
lemma Inv.able_write (hcards : ∀ x, (cards x).Verified N)
    (hcap : 4 + MAX_CONTROL_MESSAGE_SIZE ≤ capacity) (h : s.Inv cards) {x : Side}
    (hrest : (s.side x).rest ≠ []) : s.Able N fromSlice capacity := by
  cases hside : s.side x with
  | writing rest =>
    have hpos := List.length_pos_iff.2 hrest
    have hbooks := congrArg List.length (h x).books
    have hfits := IdentityCard.offer_fits (hcards x)
    rw [hside] at hpos hbooks
    simp only [List.length_append, offer, length_wire, Exchange.rest] at hbooks hpos
    refine ⟨.write x 1, ?_⟩
    simp only [CardLink.step, hside, Exchange.step]
    rw [if_pos (by omega), if_pos (by omega)]
    exact ⟨_, rfl⟩
  | _ => rw [hside] at hrest; exact absurd rfl hrest

/-- A side that reads can do so, unless the other has to write first.

**Proof sketch.** If the pipe has a byte, the side reads it. If it is empty, the other side has not
written all of its offer, and can write. -/
lemma Inv.able_read (hcards : ∀ x, (cards x).Verified N)
    (hcap : 4 + MAX_CONTROL_MESSAGE_SIZE ≤ capacity) (h : s.Inv cards) {x : Side}
    (hgot : ((s.side x).got (offer cards x.other)).length < (offer cards x.other).length)
    (hread : ∀ b, ∃ e, (s.side x).step N fromSlice (.read [b]) = some e) :
    s.Able N fromSlice capacity := by
  cases hbuffer : (s.pipe x.other).buffer with
  | nil =>
    refine h.able_write hcards hcap (x := x.other) fun hnone => ?_
    have hbooks := congrArg List.length (h.reading x)
    rw [hbuffer, hnone] at hbooks
    simp only [List.append_nil] at hbooks
    omega
  | cons b bs =>
    obtain ⟨e, he⟩ := hread b
    refine ⟨.read x 1, ?_⟩
    simp only [CardLink.step, hbuffer]
    rw [if_pos (by simp)]
    rw [show (b :: bs).take 1 = [b] from rfl, he]
    exact ⟨_, rfl⟩

/-- While a side has not finished its stream, some step can be taken.

**Proof sketch.** By cases on the phase. A side that writes has room in its pipe, since the pipe
holds a frame; a side that reads finds bytes there, or the other side has still to write them. -/
lemma Inv.able_of_not_finished (hcards : ∀ x, (cards x).Verified N)
    (hcap : 4 + MAX_CONTROL_MESSAGE_SIZE ≤ capacity) (h : s.Inv cards) {x : Side}
    (hnot : ¬ (s.side x).Finished) : s.Able N fromSlice capacity := by
  have honest := (h x).honest
  have hlen := length_wire (CardOffer.new (cards x.other).encode).toFrame
  cases hside : s.side x with
  | writing rest =>
    rw [hside] at honest
    cases honest with
    | writing _ some_ => exact h.able_write hcards hcap (x := x) (by rw [hside]; exact some_)
  | flushing =>
    refine ⟨.flush x, ?_⟩
    simp only [CardLink.step, hside]
    exact ⟨_, rfl⟩
  | readingLength got =>
    rw [hside] at honest
    cases honest with
    | readingLength _ short =>
      refine h.able_read hcards hcap (x := x) ?_ fun b => ?_
      · rw [hside]
        simp only [Exchange.got, offer, hlen]
        omega
      · rw [hside]
        simp only [Exchange.step]
        rw [if_neg (by simp), if_pos (by simp; omega)]
        exact ⟨_, rfl⟩
  | readingBody lenBuf got =>
    have hbooks := h.reading x
    rw [hside] at honest hbooks
    cases honest with
    | readingBody _ _ length_eq short =>
      have hsize := @Exchange.fromBe32_offer _ _ _ (hcards x.other) lenBuf
        (by rw [← List.append_assoc]; exact hbooks) length_eq
      refine h.able_read hcards hcap (x := x) ?_ fun b => ?_
      · rw [hside]
        simp only [Exchange.got, offer, hlen, List.length_append]
        omega
      · rw [hside]
        simp only [Exchange.step]
        rw [if_neg (by simp), if_pos (by simp; omega)]
        exact ⟨_, rfl⟩
  | finishing card =>
    refine ⟨.finish x, ?_⟩
    simp only [CardLink.step, hside]
    exact ⟨_, rfl⟩
  | draining | returned => rw [hside] at hnot; exact absurd trivial hnot

/-- While a side has not returned, some step can be taken.

**Proof sketch.** By what the two sides have finished. A side that waits for the end of the other's
stream can read it once that one has finished, and all others can read or write. -/
lemma Inv.able (hcards : ∀ x, (cards x).Verified N)
    (hcap : 4 + MAX_CONTROL_MESSAGE_SIZE ≤ capacity) (h : s.Inv cards) {x : Side}
    (hnot : ∀ r, s.side x ≠ .returned r) : s.Able N fromSlice capacity := by
  by_cases hfin : (s.side x).Finished
  · by_cases hother : (s.side x.other).Finished
    · -- both offers are read, and the other's stream has ended
      have hnone : (s.side x.other).rest = [] := by
        cases hside : s.side x.other <;> rw [hside] at hother <;> first | exact hother.elim | rfl
      cases hside : s.side x with
      | draining card trailing =>
        have hbooks := h.reading x
        rw [hside, hnone, List.append_nil] at hbooks
        have hbuffer : (s.pipe x.other).buffer = [] := by
          have hlen := congrArg List.length hbooks
          simp only [Exchange.got, List.length_append] at hlen
          exact List.length_eq_zero_iff.1 (by omega)
        refine ⟨.eof x, ?_⟩
        simp only [CardLink.step, hside, Exchange.step]
        rw [if_pos ⟨(h x.other).finished.2 hother, hbuffer⟩]
        exact ⟨_, rfl⟩
      | returned r => exact absurd hside (hnot r)
      | _ => rw [hside] at hfin; exact hfin.elim
    · exact h.able_of_not_finished hcards hcap hother
  · exact h.able_of_not_finished hcards hcap hfin

/-- **A side that returns leaves the other with its card**: it has the other's card, and the other
has finished its stream, so it holds this one's and can only return it.

**Proof sketch.** A side returns only after the other one has finished its stream, which comes after
it has accepted the card. So the other side is in one of its last two phases. -/
lemma Inv.returned (h : s.Inv cards) {x : Side} {r : Except Error IdentityCard}
    (hr : s.side x = .returned r) : r = .ok (cards x.other) ∧
      (s.side x.other = .draining (cards x) [] ∨ s.side x.other = .returned (.ok (cards x))) := by
  have honest := (h x).honest
  have honest' := (h x.other).honest
  have hfin := (h x).returns r hr
  rw [hr] at honest
  rw [Side.other_other] at honest'
  cases honest
  refine ⟨rfl, ?_⟩
  cases hside : s.side x.other with
  | draining card trailing =>
    rw [hside] at honest'
    cases honest'
    exact Or.inl rfl
  | returned r =>
    rw [hside] at honest'
    cases honest'
    exact Or.inr rfl
  | _ => rw [hside] at hfin; exact hfin.elim

/-- **The card exchange can be closed by either side.** In every interleaving of two honest sides,
over streams that hold at least one control frame and on a connection whose close may take anything
that was not read yet: a side that returns has the other's card, and the other holds this one's card
already; a run that cannot go on has both sides returned with each other's card; and no run is
longer than a bound. Against an arbitrary peer, a side that returns a card has read one frame with
an offer that the verifying parse accepted, and at most `MAX_TRAILING_BYTES` after it.

**Proof sketch.** The books of the two sides are kept by every step. A side that has returned has
read the other's card, so the other has written it, and needs nothing of it any more. In a run that
has come to its end no side waits, and every step has used up some of the fuel. The second part is
about one side alone, and is the invariant of what it has read. -/
theorem exchange_close_safe (hN : N.Lawful) :
    (∀ (cards : Side → IdentityCard) (capacity : ℕ) (labels : List CardLinkLabel) (s : CardLink),
      (∀ x, (cards x).Verified N) →
      (∀ x, fromSlice (utf8 (CardOffer.new (cards x).encode).toFrame.render) =
        .ok (.new (cards x).encode)) →
      4 + MAX_CONTROL_MESSAGE_SIZE ≤ capacity →
      Machine.exec (step N fromSlice capacity) (start cards) labels = some s →
        (∀ x r, s.side x = .returned r → r = .ok (cards x.other) ∧
          (s.side x.other = .draining (cards x) [] ∨ s.side x.other = .returned (.ok (cards x)))) ∧
        ((∀ l, s.step N fromSlice capacity l = none) →
          ∀ x, s.side x = .returned (.ok (cards x.other))) ∧
        labels.length ≤ (start cards).fuel) ∧
    ∀ (ownCard card : IdentityCard) (labels : List IoLabel) (read : Bytes),
      Machine.run (Exchange.loud N fromSlice) (.start ownCard) labels =
        some (.returned (.ok card), read) →
      ∃ data trailing offer, read = data ++ trailing ∧ trailing.length ≤ MAX_TRAILING_BYTES ∧
        decodeCardOfferBytes fromSlice data = .ok offer ∧
        IdentityCard.parse N offer.card = .ok card := by
  refine ⟨fun cards capacity labels s hcards hJson hcap hrun => ?_,
    fun ownCard card labels read hrun => Exchange.reads_offer hrun⟩
  have hinv : s.Inv cards := Machine.reachable_invariant (I := fun s => s.Inv cards)
    (.start hcards) (fun _ _ _ h hstep => h.step hN hcards hJson hstep) ⟨labels, hrun⟩
  refine ⟨fun x r hr => hinv.returned hr, fun hstuck x => ?_, ?_⟩
  · by_cases hret : ∃ r, s.side x = .returned r
    · obtain ⟨r, hr⟩ := hret
      rw [hr, (hinv.returned hr).1]
    · obtain ⟨l, s', hstep⟩ := hinv.able (N := N) hcards hcap fun r hr => hret ⟨r, hr⟩
      rw [hstuck l] at hstep
      cases hstep
  · have hle := Machine.length_le_of_decreases (f := fuel) (fun _ _ _ => fuel_lt) hrun
    omega

section Sample

/-- The payloads of the cards of two devices, -/
def samplePayload : Side → CardContent
  | .host => ⟨IDENTITY_CARD_VERSION, "host_a7B2c3D4", 0, 10⟩
  | .dialer => ⟨IDENTITY_CARD_VERSION, "dialer_9zKtm4Qp", 0, 10⟩

/-- the cards, each of another key, -/
def sampleCard (x : Side) : IdentityCard :=
  Nostr.signedCard (.filled (if x = .host then 1 else 2)) (samplePayload x)

/-- and a reader of their offers. -/
def sampleSlice : Bytes → Except Error CardOffer :=
  (Serde.ofFrames CardOffer.toFrame CardOffer.ofFrame CardOffer.version).fromSlice

/-- The reader takes an offer from its JSON. -/
lemma sampleSlice_offer (card : String) :
    sampleSlice (utf8 (CardOffer.new card).toFrame.render) = .ok (.new card) :=
  (Serde.ofFrames_readsFrames CardOffer.toFrame CardOffer.ofFrame CardOffer.version).fromSlice _ _
    (decodeLengthPrefixed_ok.1 (decodeCardOffer_toFrame card)).1

/-- **Two devices swap their cards**: some run comes to a state that has no step, and there each of
them has returned the card of the other. -/
theorem exchange_close_safe_sample : ∃ labels s,
    Machine.exec (step .ofJson sampleSlice (4 + MAX_CONTROL_MESSAGE_SIZE)) (start sampleCard)
      labels = some s ∧ s.side .dialer = .returned (.ok (sampleCard .host)) ∧
    s.side .host = .returned (.ok (sampleCard .dialer)) ∧
    labels.length ≤ (start sampleCard).fuel := by
  obtain ⟨labels, s, hexec, hhalt⟩ := @Machine.exists_halt _ _
    (step .ofJson sampleSlice (4 + MAX_CONTROL_MESSAGE_SIZE)) fuel (fun _ _ _ => fuel_lt)
    (start sampleCard)
  have hcards : ∀ x, (sampleCard x).Verified .ofJson := fun x =>
    ⟨_, Nostr.fromEvent_ofJson _ (by cases x <;> decide +kernel)⟩
  obtain ⟨-, hreturned, hlength⟩ := (exchange_close_safe Nostr.ofJson_mints.toLawful).1 sampleCard
    _ labels s hcards (fun x => sampleSlice_offer _) (Nat.le_refl _) hexec
  exact ⟨labels, s, hexec, hreturned hhalt .dialer, hreturned hhalt .host, hlength⟩

end Sample

end CardLink

end Duocb
