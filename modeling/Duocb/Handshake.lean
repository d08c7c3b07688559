import Duocb.Library.Prog
import Duocb.Protocol

set_option relaxedAutoImplicit false
set_option autoImplicit false

/-!
# Handshakes as programs

Both handshakes are programs over the operations of this file: what they do to the session
stream, the randomness they draw, the signatures they make, and the two questions they put to the
host's policy. What a handshake computes from the answers stays in the program itself.

The cryptography both handshakes rest on is a parameter: parsing and checking keys and signatures,
and the SPAKE2 and HMAC primitives with the encodings around them.

## Main definitions

* `Duocb.Op`, `Duocb.Ans` — the operations and their answers.
* `Duocb.Handshake` — a program over them.
* `Duocb.received`, `Duocb.drawn` — the frames a history has read, and the nonces it has drawn.
* `Duocb.Crypto` — the primitives.
-/

namespace Duocb

/-- The PAKE password: 32 bytes of stretched PIN material. -/
structure PinPassword where
  bytes : Bytes
  length_eq : bytes.length = 32

/-- A password is its bytes. -/
lemma PinPassword.bytes_inj {pw pw' : PinPassword} : pw.bytes = pw'.bytes ↔ pw = pw' := by
  refine ⟨fun h => ?_, fun h => h ▸ rfl⟩
  obtain ⟨bytes, hlen⟩ := pw
  obtain ⟨bytes', hlen'⟩ := pw'
  obtain rfl : bytes = bytes' := h
  rfl

/-- Passwords are compared by their bytes, of which each form has its own. -/
instance : DecidableEq PinPassword := fun _ _ => decidable_of_iff _ PinPassword.bytes_inj

/-- The first bytes of a PIN, filled up with zeros: passwords to try things with. -/
def PinPassword.padded (pin : String) : PinPassword :=
  ⟨(utf8 pin ++ List.replicate 32 0).take 32, by simp⟩

/-- What a handshake does. The first three use the stream. What is drawn and what is signed is the
device's own, and the other operations ask the host that serves the connection. -/
inductive Op where
  /-- Open (dialer) or accept (listener) the session stream. -/
  | sessionStream
  /-- Write a frame and flush it. -/
  | write (frame : Frame)
  /-- Read one length-prefixed frame of at most `max` bytes. -/
  | read (max : ℕ)
  /-- Draw a fresh nonce. -/
  | randomNonce
  /-- Sign a transcript with this device's application key. -/
  | signAuth (transcript : Bytes)
  /-- Ask the host's policy whether a key may be served. -/
  | admitKey (key : PublicKey)
  /-- Claim the pairing for a key that proved itself. -/
  | commitKey (key : PublicKey)
  /-- Snapshot the PIN passwords a listener still honours, newest first. -/
  | candidates
  /-- Draw an unguessable password for a slot without a PIN. -/
  | randomPassword
  /-- Draw the secret scalar of a SPAKE2 instance. -/
  | randomScalar
  /-- Claim the pairing for a dialer that proved a PIN. -/
  | commitPin
  deriving DecidableEq

/-- What each operation is answered with. An operation of the stream can fail; the others always
have an answer. -/
def Ans : Op → Type
  | .sessionStream => Except Error Unit
  | .write _ => Except Error Unit
  | .read _ => Except Error Frame
  | .randomNonce => String
  | .signAuth _ => String
  | .admitKey _ => Except Error Unit
  | .commitKey _ => Bool
  | .candidates => List PinPassword
  | .randomPassword => PinPassword
  | .randomScalar => ℕ
  | .commitPin => Bool

/-- A handshake: a program over the operations, failing with an error. -/
abbrev Handshake (α : Type) : Type := Prog Op Ans Error α

/-- An operation of a handshake with its answer. -/
abbrev HandshakeEvt : Type := Prog.Evt Op Ans

/-- The primitives a handshake computes with. A proof and a SPAKE2 message travel as text and as
bytes respectively. -/
structure Crypto where
  /-- Read an application key from text. -/
  parseKey : String → Option PublicKey
  /-- Check a proof against a key and a transcript. -/
  verifyAuthSignature : PublicKey → Bytes → String → Except Error Unit
  /-- Stretch a typed PIN. -/
  deriveAuthKeyMaterial : String → Except Error PinPassword
  /-- The two SPAKE2 messages: from the password and the secret scalar. -/
  pakeMsgA : PinPassword → ℕ → Bytes
  pakeMsgB : PinPassword → ℕ → Bytes
  /-- The SPAKE2 key each side derives: from its password, the identity pair, its scalar and the
  message it received. -/
  pakeFinishA : PinPassword → Bytes → Bytes → ℕ → Bytes → Except Error Bytes
  pakeFinishB : PinPassword → Bytes → Bytes → ℕ → Bytes → Except Error Bytes
  /-- HMAC-SHA256. -/
  hmac : Bytes → Bytes → Bytes
  /-- Base64url without padding. -/
  b64Encode : Bytes → String
  b64Decode : String → Option Bytes

/-- Draw a fresh nonce. -/
def randomNonce : Handshake String := .call .randomNonce .ret

/-- Sign a transcript. -/
def signAuth (transcript : Bytes) : Handshake String := .call (.signAuth transcript) .ret

/-- Ask the policy about a key, and fail with its error. -/
def admitKey (key : PublicKey) : Handshake Unit :=
  .call (.admitKey key) fun r : Except Error Unit => .ofExcept r

/-- Ask for the claim. -/
def commitKey (key : PublicKey) : Handshake Bool := .call (.commitKey key) .ret

/-- Draw an unguessable password. -/
def randomPassword : Handshake PinPassword := .call .randomPassword .ret

/-- Draw the secret scalar of a SPAKE2 instance. -/
def randomScalar : Handshake ℕ := .call .randomScalar .ret

/-- Ask for the claim of a dialer that proved a PIN. -/
def commitPin : Handshake Bool := .call .commitPin .ret

/-- Write a frame, and fail if that fails. -/
def writeFrame (frame : Frame) : Handshake Unit :=
  .call (.write frame) fun r : Except Error Unit => .ofExcept r

/-- Read a frame, and fail if that fails. -/
def readLengthPrefixed (max : ℕ) : Handshake Frame :=
  .call (.read max) fun r : Except Error Frame => .ofExcept r

/-- Fail with `e` unless `c` holds. -/
def ensure (c : Bool) (e : Error) : Handshake Unit :=
  if c then .ret () else .fail e

/-! ## What stands in a history -/

/-- The frames that were read, in order. -/
def received (h : List HandshakeEvt) : List Frame :=
  h.filterMap fun
    | ⟨.read _, (.ok frame : Except Error Frame)⟩ => some frame
    | _ => none

/-- The nonces that were drawn, in order. -/
def drawn (h : List HandshakeEvt) : List String :=
  h.filterMap fun
    | ⟨.randomNonce, (nonce : String)⟩ => some nonce
    | _ => none

/-- A frame that was read without an error is among the frames received. -/
lemma mem_received {h : List HandshakeEvt} {max : ℕ} {frame : Frame}
    (hr : ⟨.read max, .ok frame⟩ ∈ h) : frame ∈ received h :=
  List.mem_filterMap.2 ⟨_, hr, rfl⟩

/-- A nonce that was drawn is among the nonces drawn. -/
lemma mem_drawn {h : List HandshakeEvt} {nonce : String} (hr : ⟨.randomNonce, nonce⟩ ∈ h) :
    nonce ∈ drawn h :=
  List.mem_filterMap.2 ⟨_, hr, rfl⟩

/-- What was received in two stretches of a history, one after the other. -/
@[simp] lemma received_append (h h' : List HandshakeEvt) :
    received (h ++ h') = received h ++ received h' :=
  List.filterMap_append

/-- What was drawn in two stretches of a history, one after the other. -/
@[simp] lemma drawn_append (h h' : List HandshakeEvt) : drawn (h ++ h') = drawn h ++ drawn h' :=
  List.filterMap_append

/-! ## Rules for the operations -/

section Rules

variable {α : Type} {R : (o : Op) → Ans o → Prop} {I : List HandshakeEvt → Op → Prop}
  {Q : List HandshakeEvt → Except Error α → Prop} {h : List HandshakeEvt}

/-- Drawing a nonce is safe if it is allowed and the rest is safe for every nonce that may be drawn.
-/
lemma safe_randomNonce_bind {f : String → Handshake α} :
    Prog.Safe R I Q h (randomNonce >>= f) ↔ I h .randomNonce ∧
      ∀ n : String, R .randomNonce n → Prog.Safe R I Q (h ++ [⟨.randomNonce, n⟩]) (f n) := Iff.rfl

/-- Signing is safe if it is allowed and the rest is safe for every signature that may come back. -/
lemma safe_signAuth_bind {m : Bytes} {f : String → Handshake α} :
    Prog.Safe R I Q h (signAuth m >>= f) ↔ I h (.signAuth m) ∧
      ∀ s : String, R (.signAuth m) s → Prog.Safe R I Q (h ++ [⟨.signAuth m, s⟩]) (f s) := Iff.rfl

/-- A key commit is safe if it is allowed and the rest is safe for both answers that may come back.
-/
lemma safe_commitKey_bind {k : PublicKey} {f : Bool → Handshake α} :
    Prog.Safe R I Q h (commitKey k >>= f) ↔ I h (.commitKey k) ∧
      ∀ b : Bool, R (.commitKey k) b → Prog.Safe R I Q (h ++ [⟨.commitKey k, b⟩]) (f b) := Iff.rfl

/-- Drawing a scalar is safe if it is allowed and the rest is safe for every scalar that may be
drawn. -/
lemma safe_randomScalar_bind {f : ℕ → Handshake α} :
    Prog.Safe R I Q h (randomScalar >>= f) ↔ I h .randomScalar ∧
      ∀ x : ℕ, R .randomScalar x → Prog.Safe R I Q (h ++ [⟨.randomScalar, x⟩]) (f x) := Iff.rfl

/-- A PIN commit is safe if it is allowed and the rest is safe for both answers that may come back.
-/
lemma safe_commitPin_bind {f : Bool → Handshake α} :
    Prog.Safe R I Q h (commitPin >>= f) ↔ I h .commitPin ∧
      ∀ b : Bool, R .commitPin b → Prog.Safe R I Q (h ++ [⟨.commitPin, b⟩]) (f b) := Iff.rfl

/-- Asking the policy is safe if it is allowed, the rest is safe once the key is admitted, and a
refusal may end the run. -/
lemma safe_admitKey_bind {k : PublicKey} {f : Unit → Handshake α} :
    Prog.Safe R I Q h (admitKey k >>= f) ↔ I h (.admitKey k) ∧
      (R (.admitKey k) (.ok ()) → Prog.Safe R I Q (h ++ [⟨.admitKey k, .ok ()⟩]) (f ())) ∧
      ∀ e, R (.admitKey k) (.error e) → Q (h ++ [⟨.admitKey k, .error e⟩]) (.error e) :=
  and_congr_right fun _ => Prog.forall_except.trans (and_congr_left fun _ => Unique.forall_iff)

/-- Writing a frame is safe if it is allowed, the rest is safe once the frame is written, and a
failed write may end the run. -/
lemma safe_writeFrame_bind {frame : Frame} {f : Unit → Handshake α} :
    Prog.Safe R I Q h (writeFrame frame >>= f) ↔ I h (.write frame) ∧
      (R (.write frame) (.ok ()) → Prog.Safe R I Q (h ++ [⟨.write frame, .ok ()⟩]) (f ())) ∧
      ∀ e, R (.write frame) (.error e) → Q (h ++ [⟨.write frame, .error e⟩]) (.error e) :=
  and_congr_right fun _ => Prog.forall_except.trans (and_congr_left fun _ => Unique.forall_iff)

/-- Reading a frame is safe if it is allowed, the rest is safe for every frame that may be read, and
a failed read may end the run. -/
lemma safe_readLengthPrefixed_bind {max : ℕ} {f : Frame → Handshake α} :
    Prog.Safe R I Q h (readLengthPrefixed max >>= f) ↔ I h (.read max) ∧
      (∀ fs, R (.read max) (.ok fs) → Prog.Safe R I Q (h ++ [⟨.read max, .ok fs⟩]) (f fs)) ∧
      ∀ e, R (.read max) (.error e) → Q (h ++ [⟨.read max, .error e⟩]) (.error e) :=
  and_congr_right fun _ => Prog.forall_except

/-- A check is safe if the rest is safe where it succeeds, and its error may end the run where it
fails. -/
lemma safe_ensure_bind {c : Bool} {e : Error} {f : Unit → Handshake α} :
    Prog.Safe R I Q h (ensure c e >>= f) ↔
      (c = true → Prog.Safe R I Q h (f ())) ∧ (c = false → Q h (.error e)) := by
  rcases c <;> simp [ensure]

end Rules

section Steps

variable {α β : Type} {h : List HandshakeEvt} {q : Handshake α}

/-- A nonce that was drawn is handed to the rest. -/
lemma follows_randomNonce {n : String} {f : String → Handshake α} (hf : (f n).Follows h q) :
    (randomNonce >>= f).Follows (⟨.randomNonce, n⟩ :: h) q := .cons hf

/-- A signature that came back is handed to the rest. -/
lemma follows_signAuth {m : Bytes} {s : String} {f : String → Handshake α}
    (hf : (f s).Follows h q) : (signAuth m >>= f).Follows (⟨.signAuth m, s⟩ :: h) q := .cons hf

/-- The answer to a key commit is handed to the rest. -/
lemma follows_commitKey {k : PublicKey} {b : Bool} {f : Bool → Handshake α}
    (hf : (f b).Follows h q) : (commitKey k >>= f).Follows (⟨.commitKey k, b⟩ :: h) q := .cons hf

/-- Once the key is admitted, the rest goes on. -/
lemma follows_admitKey {k : PublicKey} {f : Unit → Handshake α} (hf : (f ()).Follows h q) :
    (admitKey k >>= f).Follows (⟨.admitKey k, .ok ()⟩ :: h) q := .cons hf

/-- Once a frame is written, the rest goes on. -/
lemma follows_writeFrame {frame : Frame} {f : Unit → Handshake α} (hf : (f ()).Follows h q) :
    (writeFrame frame >>= f).Follows (⟨.write frame, .ok ()⟩ :: h) q := .cons hf

/-- A frame that was read is handed to the rest. -/
lemma follows_readLengthPrefixed {max : ℕ} {frame : Frame} {f : Frame → Handshake α}
    (hf : (f frame).Follows h q) :
    (readLengthPrefixed max >>= f).Follows (⟨.read max, .ok frame⟩ :: h) q := .cons hf

/-- A value that is there is handed to the rest, and leaves no event. -/
lemma follows_ofExcept {x : Except Error β} {b : β} {f : β → Handshake α} (hx : x = .ok b)
    (hf : (f b).Follows h q) : (Prog.ofExcept x >>= f).Follows h q := by
  subst hx
  exact hf

/-- A check that succeeds leaves no event. -/
lemma follows_ensure {c : Bool} {e : Error} {f : Unit → Handshake α} (hc : c = true)
    (hf : (f ()).Follows h q) : (ensure c e >>= f).Follows h q := by
  subst hc
  exact hf

/-! What a program that was followed to its end has been answered. -/

/-- A program that begins with a scalar and has ended has drawn one, and ended behind it. -/
lemma ended_randomScalar {f : ℕ → Handshake α} (hf : (randomScalar >>= f).Follows h q)
    (hq : q.Ended) : ∃ x h', h = ⟨.randomScalar, x⟩ :: h' ∧ (f x).Follows h' q :=
  hf.of_call hq

/-- A program that begins with a random password and has ended has drawn one, and ended behind it.
-/
lemma ended_randomPassword {f : PinPassword → Handshake α}
    (hf : (randomPassword >>= f).Follows h q) (hq : q.Ended) :
    ∃ p h', h = ⟨.randomPassword, p⟩ :: h' ∧ (f p).Follows h' q :=
  hf.of_call hq

/-- A program that begins with a PIN commit and has ended got an answer, and ended behind it. -/
lemma ended_commitPin {f : Bool → Handshake α} (hf : (commitPin >>= f).Follows h q)
    (hq : q.Ended) : ∃ b h', h = ⟨.commitPin, b⟩ :: h' ∧ (f b).Follows h' q :=
  hf.of_call hq

/-- A program that begins with a write and has ended has tried it, and went on if the frame was
written. -/
lemma ended_writeFrame {frame : Frame} {f : Unit → Handshake α}
    (hf : (writeFrame frame >>= f).Follows h q) (hq : q.Ended) :
    ∃ (a : Except Error Unit) (h' : _), h = ⟨.write frame, a⟩ :: h' ∧
      (a = .ok () → (f ()).Follows h' q) := by
  obtain ⟨a, h', rfl, hrest⟩ := hf.of_call hq
  exact ⟨a, h', rfl, fun ha => by subst ha; exact hrest⟩

/-- A value that is there leaves no event, so what was followed is the rest. -/
lemma followed_ofExcept {x : Except Error β} {b : β} {f : β → Handshake α}
    (hf : (Prog.ofExcept x >>= f).Follows h q) (hx : x = .ok b) : (f b).Follows h q := by
  subst hx
  exact hf

/-- A check that succeeds leaves no event, so what was followed is the rest. -/
lemma followed_ensure {c : Bool} {e : Error} {f : Unit → Handshake α}
    (hf : (ensure c e >>= f).Follows h q) (hc : c = true) : (f ()).Follows h q := by
  subst hc
  exact hf

/-- A program whose last step is a write has tried it, and returned if the frame was written. -/
lemma ended_writeFrame_last {frame : Frame} {h : List HandshakeEvt} {q : Handshake Unit}
    (hf : (writeFrame frame).Follows h q) (hq : q.Ended) :
    ∃ (a : Except Error Unit) (h' : _), h = ⟨.write frame, a⟩ :: h' ∧
      (a = .ok () → h' = [] ∧ q = .ret ()) := by
  obtain ⟨a, h', rfl, hrest⟩ := hf.of_call hq
  exact ⟨a, h', rfl, fun ha => by subst ha; exact hrest.of_ret⟩

/-- A program that begins with a read and has ended has tried it: it went on with a frame, and
failed with the error of the read otherwise. -/
lemma ended_readLengthPrefixed {max : ℕ} {f : Frame → Handshake α}
    (hf : (readLengthPrefixed max >>= f).Follows h q) (hq : q.Ended) :
    ∃ (r : Except Error Frame) (h' : _), h = ⟨.read max, r⟩ :: h' ∧
      (∀ frame, r = .ok frame → (f frame).Follows h' q) ∧
      ∀ e, r = .error e → h' = [] ∧ q = .fail e := by
  obtain ⟨r, h', rfl, hrest⟩ := hf.of_call hq
  refine ⟨r, h', rfl, fun frame hr => ?_, fun e hr => ?_⟩ <;> subst hr
  · exact hrest
  · exact hrest.of_fail

end Steps

end Duocb
