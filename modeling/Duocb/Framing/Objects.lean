import Duocb.Framing
import Duocb.Protocol.Json

set_option relaxedAutoImplicit false
set_option autoImplicit false

/-!
# Messages as JSON objects

The messages of the protocol are JSON objects on the wire. A JSON library writes a message as the
text of its object, and reads it from the text of any object that has its fields. So a message of
this version that fits under the cap of its stream is sent, and read back from the bytes of its
frame.

## Main definitions

* `Duocb.Serde.ReadsFrames` — a library that writes and reads messages as objects.
* `Duocb.Serde.ofFrames` — such a library.

## Main results

* `Duocb.Serde.ofFrames_readsFrames` — it does what a JSON library promises.
* `Duocb.Serde.ReadsFrames.decode_wire` — the decoder of objects and the decoder of bytes agree.
* `Duocb.Serde.ReadsFrames.sent` — a message that fits is sent, and read back.
-/

namespace Duocb

namespace Serde

variable {T : Type}

/-- What a JSON library promises of a type of messages: a message is written as the text of its
object, and read from the text of any object whose fields make a message. -/
structure ReadsFrames (S : Serde T) (toFrame : T → Frame) (ofFrame : Frame → Option T)
    (version : T → ℕ) : Prop where
  toVec : ∀ m, S.toVec m = .ok (utf8 (toFrame m).render)
  fromSlice : ∀ fs m, ofFrame fs = some m → S.fromSlice (utf8 fs.render) = .ok m
  version : S.version = version

/-- The text of a byte string. -/
def ofUtf8 (bs : Bytes) : Option String := String.fromUTF8? ⟨bs.toArray⟩

/-- A library that writes and reads messages as objects. What is read must be text, one JSON object,
and an object of this kind of message; any other data is one error. -/
def ofFrames (toFrame : T → Frame) (ofFrame : Frame → Option T) (version : T → ℕ) : Serde T where
  toVec m := .ok (utf8 (toFrame m).render)
  fromSlice bs := match (ofUtf8 bs).bind fun s => (Json.readFrame s).bind ofFrame with
    | some m => .ok m
    | none => .error (.msg "invalid message")
  version := version

/-- A text is read from its bytes. -/
lemma ofUtf8_utf8 (s : String) : ofUtf8 (utf8 s) = some s := by
  have harray : (⟨(utf8 s).toArray⟩ : ByteArray) = s.toByteArray := rfl
  rw [ofUtf8, harray, String.fromUTF8?, dif_pos s.isValidUTF8]
  rfl

/-- It keeps what a JSON library promises. -/
lemma ofFrames_readsFrames (toFrame : T → Frame) (ofFrame : Frame → Option T) (version : T → ℕ) :
    (ofFrames toFrame ofFrame version).ReadsFrames toFrame ofFrame version where
  toVec _ := rfl
  fromSlice fs m h := by
    simp only [ofFrames, ofUtf8_utf8, Option.bind_some, Json.readFrame_render, h]
  version := rfl

/-- **The two decoders agree.** What the decoder of objects takes from an object that fits under the
limit, the decoder of bytes takes from the frame of that object.

**Proof sketch.** The decoder of bytes accepts a frame whose length is that of its JSON, and its
JSON is read as the object is. -/
lemma ReadsFrames.decode_wire {S : Serde T} {toFrame : T → Frame} {ofFrame : Frame → Option T}
    {version : T → ℕ} (hS : S.ReadsFrames toFrame ofFrame version) {max : ℕ} (hmax : max < 2 ^ 32)
    {typeName : String} {m : T} {f : Frame} (hsize : f.size ≤ max)
    (hread : Duocb.decodeLengthPrefixed f ofFrame version typeName = .ok m) :
    S.decodeLengthPrefixed max typeName f.wire = .ok m := by
  obtain ⟨hof, hversion⟩ := decodeLengthPrefixed_ok.1 hread
  have hlen : (utf8 f.render).length = f.size := length_utf8 _
  refine decodeLengthPrefixed_eq_ok.2 ⟨_, _, rfl, length_be32 _, ?_, ?_, hS.fromSlice _ _ hof, ?_⟩
  · rw [hlen]
    exact fromBe32_be32 (by omega)
  · rw [hlen]
    exact hsize
  · rw [hS.version]
    exact hversion

/-- **A message that fits is sent, and read back**, if its object is.

**Proof sketch.** The text of the object is encoded, since it fits, and the lemma above reads it
back. -/
theorem ReadsFrames.sent {S : Serde T} {toFrame : T → Frame} {ofFrame : Frame → Option T}
    {version : T → ℕ} (hS : S.ReadsFrames toFrame ofFrame version) {max : ℕ} (hmax : max < 2 ^ 32)
    {typeName : String} {m : T} (hsize : (toFrame m).size ≤ max)
    (hread : Duocb.decodeLengthPrefixed (toFrame m) ofFrame version typeName = .ok m) :
    ∃ bs, S.encodeLengthPrefixed max typeName m = .ok bs ∧ bs.length ≤ 4 + max ∧
      S.decodeLengthPrefixed max typeName bs = .ok m := by
  have hlen : (utf8 (toFrame m).render).length = (toFrame m).size := length_utf8 _
  refine ⟨(toFrame m).wire, encodeLengthPrefixed_eq_ok.2 ⟨_, hS.toVec m, ?_, ?_⟩, ?_,
    hS.decode_wire hmax hsize hread⟩
  · rw [hlen]
    exact hsize
  · rw [Frame.wire, hlen]
  · rw [length_wire]
    omega

end Serde

end Duocb
