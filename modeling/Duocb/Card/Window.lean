import Duocb.App
import Duocb.Card.Minting

set_option relaxedAutoImplicit false
set_option autoImplicit false

/-!
# The window of a card

A card is usable in one stretch of time, and every clock reads it as not begun, as usable, or as
over. The source judges a window with unsigned numbers of 64 bits, so a subtraction below zero would
stop the program, or go around the corner. Here such a subtraction has no result, and it never
happens.

## Main definitions

* `Duocb.Computation`, `Duocb.subU64` — computations that an underflow stops, and the subtraction
  that may underflow.
* `Duocb.IdentityCard.fromEventU64` — the verifying parse, with its arithmetic on 64 bits.
* `Duocb.IdentityCard.opensAt`, `Duocb.IdentityCard.remainingSecsAt` — the first second in which a
  card is usable, and the seconds it has left.

## Main results

* `Duocb.IdentityCard.fromEventU64_eq` — no event makes the parse underflow.
* `Duocb.IdentityCard.isValidAt_iff` — when a card is usable.
* `Duocb.IdentityCard.validity_window` — the windows of the cards that are accepted.
-/

namespace Duocb

/-! ## Arithmetic on 64 bits -/

/-- A computation that an underflow stops, or that succeeds or fails. -/
abbrev Computation (α : Type) : Type := ExceptT Error Option α

/-- A computation that does no arithmetic. -/
def checked {α : Type} (r : Except Error α) : Computation α := ExceptT.mk (some r)

/-- A difference of unsigned numbers, if there is one. -/
def checkedSub (a b : ℕ) : Option ℕ := if b ≤ a then some (a - b) else none

/-- A difference as a step of a computation. -/
def subU64 (a b : ℕ) : Computation ℕ := ExceptT.mk ((checkedSub a b).map .ok)

/-- What the type of a payload promises: both ends of its window are numbers of 64 bits. -/
def Nostr.U64Windows (N : Nostr) : Prop :=
  ∀ text content, N.contentFromJson text = .ok content →
    content.notBefore < 2 ^ 64 ∧ content.notAfter < 2 ^ 64

/-- A step without arithmetic, and a rest that does not underflow. -/
lemma checked_bind {α β : Type} {x : Except Error α} {f : α → Computation β}
    {g : α → Except Error β}
    (h : ∀ a, x = .ok a → f a = checked (g a)) : (checked x >>= f) = checked (x >>= g) := by
  cases x with
  | error e => rfl
  | ok a => exact h a rfl

/-- A difference that does not underflow. -/
lemma subU64_bind {β : Type} {a b : ℕ} (h : b ≤ a) (f : ℕ → Computation β) :
    (subU64 a b >>= f) = f (a - b) := by
  rw [subU64, checkedSub, if_pos h]
  rfl

namespace IdentityCard

variable {N : Nostr}

/-- The verifying parse, with its arithmetic on 64 bits. The subtraction of the two times is the one
place where it could leave the range. -/
def fromEventU64 (N : Nostr) (event : CardEvent) : Computation IdentityCard := do
  checked (withContext (N.verify event) "identity card signature is invalid")
  checked (bailIf (event.kind ≠ IDENTITY_CARD_KIND) "identity card has the wrong event kind")
  checked (bailIf (event.identifier ≠ some IDENTITY_CARD_DTAG)
    "identity card has the wrong identifier")
  let content ← checked
    (withContext (N.contentFromJson event.content) "identity card payload is invalid")
  checked (bailIf (content.version ≠ IDENTITY_CARD_VERSION)
    s!"identity card version {content.version} is unsupported")
  let _ ← checked (splitDisplayIdentity content.name)
  checked (bailIf (content.notAfter ≤ content.notBefore)
    "identity card validity window ends no later than it starts")
  let lifetime ← subU64 content.notAfter content.notBefore
  checked (bailIf (CARD_TTL_SECS < lifetime)
    s!"identity card claims a lifetime longer than {CARD_TTL_SECS} seconds")
  checked (bailIf (event.createdAt ≠ content.notBefore)
    "identity card event time does not match its validity start")
  checked (bailIf (event.expiration ≠ some content.notAfter)
    "identity card expiration tag does not match its validity end")
  checked (bailIf (MAX_CARD_SIZE < event.json.utf8ByteSize)
    s!"identity card exceeds {MAX_CARD_SIZE} bytes")
  checked (.ok ⟨event.publicKey, content.name, content.notBefore, content.notAfter, event.json⟩)

/-- Seconds of life left at a time, or an underflow. -/
def remainingSecsAt (card : IdentityCard) (now : ℕ) : Option ℕ :=
  if card.isValidAt now then checkedSub card.notAfter now else some 0

/-- The first second in which a card is usable: the start of its window less the grace, but no time
before zero. -/
def opensAt (card : IdentityCard) : ℕ := card.notBefore - clockSkewGraceSecs

/-- **No event makes the parse underflow**: it only subtracts where the window runs forward.

**Proof sketch.** The parse is the same sequence of checks with and without overflow. Where it
subtracts the start from the end, it has already checked that the window runs forward. -/
theorem fromEventU64_eq (event : CardEvent) :
    fromEventU64 N event = checked (fromEvent N event) := by
  unfold fromEventU64 fromEvent
  refine checked_bind fun _ _ => checked_bind fun _ _ => checked_bind fun _ _ =>
    checked_bind fun content _ => checked_bind fun _ _ => checked_bind fun _ _ =>
    checked_bind fun _ hforward => ?_
  rw [bailIf_eq_ok, Nat.not_le] at hforward
  rw [subU64_bind (Nat.le_of_lt hforward)]
  refine checked_bind fun _ _ => checked_bind fun _ _ => checked_bind fun _ _ =>
    checked_bind fun _ _ => ?_
  rfl

/-! ## Reading a window -/

/-- On 64 bits the grace does not carry a clock past a start that is a number of 64 bits. -/
lemma isNotYetValidAt_iff {card : IdentityCard} (hstart : card.notBefore < 2 ^ 64) (now : ℕ) :
    card.isNotYetValidAt now = true ↔ now < card.opensAt := by
  simp only [isNotYetValidAt, saturatingAdd, opensAt, gt_iff_lt, decide_eq_true_eq]
  omega

/-- **When a card is usable.** -/
theorem isValidAt_iff {card : IdentityCard} (hstart : card.notBefore < 2 ^ 64) (now : ℕ) :
    card.isValidAt now = true ↔ card.opensAt ≤ now ∧ now < card.notAfter := by
  have hnot := isNotYetValidAt_iff hstart now
  rw [isValidAt, Bool.and_eq_true, decide_eq_true_eq, Bool.not_eq_true', ← Bool.not_eq_true, hnot,
    Nat.not_lt]

/-- The seconds left never underflow, and are those that the application shows. -/
lemma remainingSecsAt_eq (card : IdentityCard) (w : Wall) :
    card.remainingSecsAt w.now = some (w.remainingSecs card) := by
  unfold remainingSecsAt Wall.remainingSecs
  split_ifs with hvalid
  · have hend : w.now < card.notAfter := by
      simp only [isValidAt, Bool.and_eq_true, decide_eq_true_eq] at hvalid
      exact hvalid.2
    rw [checkedSub, if_pos (Nat.le_of_lt hend)]
  · rfl

/-- **The windows of the cards that are accepted.** No event makes the parse underflow. Of a card
that it accepts, at every time of 64 bits, exactly one holds: the card is not valid yet, it is
valid, or its end has come. The times at which it is valid are those from the start of its window
less the grace up to its end; they are some, and no more than a lifetime and the grace. The seconds
it has left are some exactly then, do not underflow, and are no more than that.

**Proof sketch.** A card that is accepted has a window that runs forward and is not too long, with
both ends below 2 ^ 64. Each of the three predicates compares the time with the same two ends, so
one of them holds, and what remains is the distance to the end. -/
theorem validity_window (hN : N.U64Windows) :
    (∀ event, fromEventU64 N event = checked (fromEvent N event)) ∧
    ∀ event card, fromEvent N event = .ok card →
      (card.opensAt < card.notAfter ∧ card.notAfter < 2 ^ 64 ∧
        card.notAfter - card.opensAt ≤ CARD_TTL_SECS + clockSkewGraceSecs) ∧
      ∀ now < 2 ^ 64,
        [card.isNotYetValidAt now, card.isValidAt now,
          decide (card.notAfter ≤ now)].count true = 1 ∧
        (card.isValidAt now = true ↔ card.opensAt ≤ now ∧ now < card.notAfter) ∧
        ∃ secs, card.remainingSecsAt now = some secs ∧ (0 < secs ↔ card.isValidAt now = true) ∧
          secs ≤ CARD_TTL_SECS + clockSkewGraceSecs := by
  refine ⟨fromEventU64_eq, fun event card hcard => ?_⟩
  have hc := fromEvent_ok hcard
  obtain ⟨hstart, hend⟩ := hN _ _ hc.payload
  have hwindow := hc.window
  have hlifetime := hc.lifetime
  have hopens : card.opensAt ≤ card.notBefore := Nat.sub_le _ _
  have hgrace : card.notBefore ≤ card.opensAt + clockSkewGraceSecs :=
    Nat.sub_le_iff_le_add.1 (Nat.le_refl _)
  refine ⟨⟨by omega, hend, by omega⟩, fun now _ => ?_⟩
  have hvalid := isValidAt_iff hstart now
  have hnot := isNotYetValidAt_iff hstart now
  refine ⟨?_, hvalid, ?_⟩
  · rcases Nat.lt_or_ge now card.opensAt with hearly | hopen
    · have h₁ : card.isNotYetValidAt now = true := hnot.2 hearly
      have h₂ : card.isValidAt now = false := by
        rw [← Bool.not_eq_true, hvalid]
        omega
      have h₃ : ¬ card.notAfter ≤ now := by omega
      simp [h₁, h₂, h₃]
    · have h₁ : card.isNotYetValidAt now = false := by
        rw [← Bool.not_eq_true, hnot]
        omega
      rcases Nat.lt_or_ge now card.notAfter with hbefore | hover
      · have h₂ : card.isValidAt now = true := hvalid.2 ⟨hopen, hbefore⟩
        simp [h₁, h₂, Nat.not_le.2 hbefore]
      · have h₂ : card.isValidAt now = false := by
          rw [← Bool.not_eq_true, hvalid]
          omega
        simp [h₁, h₂, hover]
  · refine ⟨_, remainingSecsAt_eq card ⟨now, fun _ => ""⟩, ?_⟩
    unfold Wall.remainingSecs
    split_ifs with h
    · obtain ⟨hopen, hbefore⟩ := hvalid.1 h
      refine ⟨iff_of_true ?_ h, ?_⟩
      · show 0 < card.notAfter - now
        omega
      · show card.notAfter - now ≤ _
        omega
    · exact ⟨iff_of_false (by omega) h, Nat.zero_le _⟩

section Sample

/-- The library of events and payloads, with the numbers of a payload in 64 bits each. A payload
with a larger number is refused, as it is by a reader of 64-bit numbers. -/
def nostrU64 : Nostr :=
  { Nostr.ofJson with
    contentFromJson := fun s => match Json.readContent s with
      | some c => if c.notBefore < 2 ^ 64 ∧ c.notAfter < 2 ^ 64 then .ok c
        else .error (.msg "number out of range")
      | none => .error (.msg "invalid payload") }

/-- Its payloads have windows of 64-bit numbers. -/
lemma nostrU64_windows : nostrU64.U64Windows := by
  intro text content h
  simp only [nostrU64] at h
  split at h
  · split_ifs at h with hbounds
    obtain rfl := Except.ok.inj h
    exact hbounds
  · cases h

/-- A card whose window ends with the last number of 64 bits. -/
def latestContent : CardContent :=
  ⟨IDENTITY_CARD_VERSION, "mac-book_a7B2c3D4", 2 ^ 64 - 1 - CARD_TTL_SECS, 2 ^ 64 - 1⟩

/-- In the first second of the last card's window there is a whole lifetime left.

**Proof sketch.** The payload is in the range of the reader, so that the event is parsed as it was
signed. The rest is the theorem at the first second of the window. -/
theorem validity_window_sample : ∃ card,
    fromEvent nostrU64 (Nostr.signedEvent (.filled 1) latestContent) = .ok card ∧
    card.isValidAt latestContent.notBefore = true ∧
    card.remainingSecsAt latestContent.notBefore = some CARD_TTL_SECS := by
  have hlibrary : nostrU64.verify = Nostr.ofJson.verify := rfl
  have hverify := Nostr.verify_signedEvent (.filled 1) latestContent
  rw [← hlibrary] at hverify
  have hread : nostrU64.contentFromJson latestContent.text = .ok latestContent := by
    simp only [nostrU64, Json.readContent_text]
    decide
  have hcard : fromEvent nostrU64 (Nostr.signedEvent (.filled 1) latestContent) =
      .ok (Nostr.signedCard (.filled 1) latestContent) :=
    Nostr.fromEvent_signedEvent hverify hread (by decide +kernel)
  obtain ⟨-, hwindows⟩ := validity_window nostrU64_windows
  obtain ⟨-, htimes⟩ := hwindows _ _ hcard
  obtain ⟨-, hvalid, -⟩ := htimes latestContent.notBefore (by decide)
  exact ⟨_, hcard, hvalid.2 (by decide), by decide +kernel⟩

end Sample

end IdentityCard

end Duocb
