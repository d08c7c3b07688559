import Mathlib.Algebra.Ring.Nat
import Mathlib.Data.List.Lex

set_option relaxedAutoImplicit false
set_option autoImplicit false

/-!
# Keys, cards and errors

The values the whole application passes around: application keys, transport endpoint ids, signed
identity cards with their validity window, the key identity a clipboard session runs under, and
errors with their context chain.

A card is represented by what the verified card answers: its key, name, window and encoded form.
That a card is well formed and correctly signed is what it means to hold one.

## Main definitions

* `Duocb.PublicKey`, `Duocb.EndpointId` — 32-byte keys.
* `Duocb.IdentityCard` — a verified card; `IdentityCard.isValidAt` judges its window.
* `Duocb.KeyIdentity` — the identity and trust store of a clipboard session.
* `Duocb.Error` — an error: what marks it, and its messages from the outermost context in.

## Main results

* `Duocb.utf8_inj` — a text is determined by its bytes.
* `Duocb.toHex_inj`, `Duocb.hexDecode_flatMap` — bytes can be read back from their hexadecimal form.
-/

namespace Duocb

/-- Bytes as they stand in a frame, a transcript or a key. -/
abbrev Bytes : Type := List UInt8

/-- The UTF-8 bytes of a text. -/
def utf8 (s : String) : Bytes := s.toByteArray.data.toList

/-- Two texts with the same bytes are the same text. -/
lemma utf8_inj {s t : String} : utf8 s = utf8 t ↔ s = t := by
  refine ⟨fun h => ?_, fun h => h ▸ rfl⟩
  apply String.toByteArray_inj.1
  exact ByteArray.ext (Array.toList_inj.1 h)

/-- A text has as many bytes as its UTF-8 form is long. -/
@[simp] lemma length_utf8 (s : String) : (utf8 s).length = s.utf8ByteSize := rfl

/-- An application public key (32 bytes). -/
@[ext]
structure PublicKey where
  /-- The serialized key. -/
  bytes : Bytes
  length_eq : bytes.length = 32
  deriving DecidableEq

/-- A transport endpoint id (32 bytes): the peer's node id, authenticated by the transport. -/
structure EndpointId where
  /-- The serialized id. -/
  bytes : Bytes
  length_eq : bytes.length = 32
  deriving DecidableEq

/-- The key of which every byte is the same: keys to try things with. -/
def PublicKey.filled (b : UInt8) : PublicKey := ⟨List.replicate 32 b, List.length_replicate⟩

/-- Such an endpoint id. -/
def EndpointId.filled (b : UInt8) : EndpointId := ⟨List.replicate 32 b, List.length_replicate⟩

/-- Two lower-case hexadecimal digits. -/
def hexByte (b : UInt8) : List Char := [Nat.digitChar (b.toNat / 16), Nat.digitChar (b.toNat % 16)]

/-- The lower-case hexadecimal form of a byte string. -/
def toHex (bs : Bytes) : String := String.ofList (bs.flatMap hexByte)

/-- A key in hexadecimal. -/
def PublicKey.toHex (k : PublicKey) : String := Duocb.toHex k.bytes

/-- An endpoint id as text, the form that is signed and shown. -/
def EndpointId.toString (id : EndpointId) : String := Duocb.toHex id.bytes

/-! ## Hexadecimal -/

/-- A byte can be read back from its two digits. -/
lemma hexByte_inj {b c : UInt8} (h : hexByte b = hexByte c) : b = c := by
  have digit : ∀ i j : Fin 16, Nat.digitChar i = Nat.digitChar j → i = j := by decide
  simp only [hexByte, List.cons.injEq, and_true] at h
  have hb := b.toNat_lt
  have hc := c.toNat_lt
  have hhigh := digit ⟨b.toNat / 16, by omega⟩ ⟨c.toNat / 16, by omega⟩ h.1
  have hlow := digit ⟨b.toNat % 16, by omega⟩ ⟨c.toNat % 16, by omega⟩ h.2
  simp only [Fin.mk.injEq] at hhigh hlow
  apply UInt8.toNat_inj.1
  omega

/-- What holds of the sixteen digits holds of every digit of bytes. -/
lemma forall_mem_toHex {P : Char → Prop} (digit : ∀ i : Fin 16, P (Nat.digitChar i)) (bs : Bytes) :
    ∀ c ∈ (toHex bs).toList, P c := by
  intro c hc
  simp only [toHex, String.toList_ofList, List.mem_flatMap] at hc
  obtain ⟨b, -, hb⟩ := hc
  have hb' := b.toNat_lt
  simp only [hexByte, List.mem_cons, List.not_mem_nil, or_false] at hb
  rcases hb with rfl | rfl
  · exact digit ⟨b.toNat / 16, by omega⟩
  · exact digit ⟨b.toNat % 16, by omega⟩

/-- Bytes can be read back from their digits.

**Proof sketch.** By induction along both. Each byte takes two digits, so the digits of the first
bytes are the first two. -/
lemma flatMap_hexByte_inj {bs cs : Bytes} (h : bs.flatMap hexByte = cs.flatMap hexByte) :
    bs = cs := by
  induction bs generalizing cs with
  | nil =>
    cases cs with
    | nil => rfl
    | cons c cs => simp [hexByte] at h
  | cons b bs ih =>
    cases cs with
    | nil => simp [hexByte] at h
    | cons c cs =>
      simp only [List.flatMap_cons] at h
      obtain ⟨hhead, htail⟩ := List.append_inj h (by simp [hexByte])
      rw [hexByte_inj hhead, ih htail]

/-- **Bytes can be read back from their hexadecimal form.** -/
theorem toHex_inj {bs cs : Bytes} (h : toHex bs = toHex cs) : bs = cs :=
  flatMap_hexByte_inj (String.ofList_injective h)

/-- A key can be read back from its hexadecimal form. -/
lemma PublicKey.toHex_inj {k l : PublicKey} (h : k.toHex = l.toHex) : k = l :=
  PublicKey.ext (Duocb.toHex_inj h)

/-- The first digits of a hexadecimal form are those of the first bytes. -/
lemma take_flatMap_hexByte (bs : Bytes) (n : ℕ) :
    (bs.flatMap hexByte).take (2 * n) = (bs.take n).flatMap hexByte := by
  induction n generalizing bs with
  | zero => simp
  | succ n ih =>
    cases bs with
    | nil => simp
    | cons b bs =>
      have hlen : (hexByte b).length = 2 := rfl
      rw [List.flatMap_cons, List.take_append, hlen, List.take_of_length_le (by omega),
        show 2 * (n + 1) - 2 = 2 * n by omega, ih]
      simp

/-- The value of a hexadecimal digit of either case. -/
def hexValue (c : Char) : Option ℕ :=
  if '0' ≤ c ∧ c ≤ '9' then some (c.toNat - '0'.toNat)
  else if 'a' ≤ c ∧ c ≤ 'f' then some (c.toNat - 'a'.toNat + 10)
  else if 'A' ≤ c ∧ c ≤ 'F' then some (c.toNat - 'A'.toNat + 10)
  else none

/-- The bytes of a hexadecimal text. Both cases are read, two digits a byte; an odd number of digits
is no such text. -/
def hexDecode : List Char → Option Bytes
  | [] => some []
  | [_] => none
  | c :: d :: rest => do
    let high ← hexValue c
    let low ← hexValue d
    let bytes ← hexDecode rest
    return UInt8.ofNat (16 * high + low) :: bytes

/-- A digit has its value. -/
lemma hexValue_digitChar {n : ℕ} (h : n < 16) : hexValue (Nat.digitChar n) = some n :=
  (show ∀ i : Fin 16, hexValue (Nat.digitChar i) = some i.val by decide) ⟨n, h⟩

/-- Bytes are decoded from their digits.

**Proof sketch.** By induction on the bytes: the two digits of a byte have its quotient and its
remainder by 16 as values. -/
lemma hexDecode_flatMap (bs : Bytes) : hexDecode (bs.flatMap hexByte) = some bs := by
  induction bs with
  | nil => rfl
  | cons b bs ih =>
    have hb := b.toNat_lt
    have hbyte : UInt8.ofNat (16 * (b.toNat / 16) + b.toNat % 16) = b := by
      rw [Nat.div_add_mod]
      exact UInt8.ofNat_toNat
    rw [List.flatMap_cons, hexByte, List.cons_append, List.cons_append, List.nil_append, hexDecode,
      hexValue_digitChar (by omega), hexValue_digitChar (by omega), ih]
    simp only [Option.bind_eq_bind, Option.bind_some, hbyte]
    rfl

/-! ## Errors -/

/-- The markers the runtime looks for inside an error. -/
inductive Marker where
  | authFailure
  | expiredCard
  deriving DecidableEq

/-- An error: the marker found at its root, if any, and its messages, outermost context first. -/
structure Error where
  marker : Option Marker
  chain : List String
  deriving DecidableEq

namespace Error

/-- An error with one message. -/
def msg (m : String) : Error := ⟨none, [m]⟩

/-- Wrap an error in a context message. -/
def context (e : Error) (m : String) : Error := ⟨e.marker, m :: e.chain⟩

/-- The whole chain on one line. -/
def display (e : Error) : String := ": ".intercalate e.chain

/-- A context does not hide the marker of an error. -/
@[simp] lemma context_marker (e : Error) (m : String) : (e.context m).marker = e.marker := rfl

end Error

/-- Wrap the error of a fallible result in a context message. -/
def withContext {α : Type} (r : Except Error α) (m : String) : Except Error α :=
  r.mapError fun e => e.context m

/-- A context changes no result. -/
@[simp] lemma withContext_ok {α : Type} (a : α) (m : String) :
    withContext (.ok a) m = .ok a := rfl

/-- A context is put around an error. -/
@[simp] lemma withContext_error {α : Type} (e : Error) (m : String) :
    withContext (.error e : Except Error α) m = .error (e.context m) := rfl

/-- A result in a context is the result. -/
@[simp] lemma withContext_eq_ok {α : Type} {r : Except Error α} {m : String} {a : α} :
    withContext r m = .ok a ↔ r = .ok a := by
  cases r <;> simp

/-- What a sequence that succeeded has gone through. -/
lemma bind_eq_ok {ε α β : Type} {x : Except ε α} {f : α → Except ε β} {b : β} :
    x >>= f = .ok b ↔ ∃ a, x = .ok a ∧ f a = .ok b := by
  cases x with
  | ok a => exact ⟨fun h => ⟨a, rfl, h⟩, fun ⟨_, ha, h⟩ => by cases ha; exact h⟩
  | error e => exact ⟨fun h => (by cases h), fun ⟨_, ha, _⟩ => (by cases ha)⟩

/-! ## Cards -/

/-- Tolerance on the opening edge of a card's window, in seconds. -/
def clockSkewGraceSecs : ℕ := 5 * 60

/-- A verified identity card. It is what a parse returns: the key that signed the event, the fields
of its payload, and the event's own JSON text. -/
structure IdentityCard where
  publicKey : PublicKey
  name : String
  /-- Start of the signed validity window (Unix seconds). -/
  notBefore : ℕ
  /-- End of the signed validity window (Unix seconds). -/
  notAfter : ℕ
  /-- The card as it is handed over. -/
  encode : String
  deriving DecidableEq

namespace IdentityCard

/-- `now.saturating_add(grace)` on 64 bits. -/
def saturatingAdd (now grace : ℕ) : ℕ := min (now + grace) (2 ^ 64 - 1)

/-- Whether the window has not opened yet at `now`, beyond the skew grace. -/
def isNotYetValidAt (card : IdentityCard) (now : ℕ) : Bool :=
  card.notBefore > saturatingAdd now clockSkewGraceSecs

/-- Whether `now` falls inside the signed validity window, with the grace on its opening edge. -/
def isValidAt (card : IdentityCard) (now : ℕ) : Bool :=
  !card.isNotYetValidAt now && decide (now < card.notAfter)

end IdentityCard

/-- A persistent identity. Signing is an operation the identity's owner performs, so the value is
the key that names it. -/
structure Identity where
  publicKey : PublicKey
  deriving DecidableEq

/-- Persistent configure-mode identity plus its local trust store. A session is started with it: the
device's key, its own card, the cards that it trusts and the relays that it uses. -/
structure KeyIdentity where
  identity : Identity
  selfCard : IdentityCard
  peers : List IdentityCard
  relays : List String
  deriving DecidableEq

/-- The trusted card of a key. -/
def KeyIdentity.peer (i : KeyIdentity) (publicKey : PublicKey) : Option IdentityCard :=
  i.peers.find? fun card => card.publicKey = publicKey

end Duocb
