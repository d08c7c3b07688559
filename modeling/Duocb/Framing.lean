import Duocb.Card
import Duocb.KeyAuth
import Duocb.Library.Chunks

set_option relaxedAutoImplicit false
set_option autoImplicit false

/-!
# Frames on a byte stream

A message travels as the length of its JSON in four bytes, and the JSON. The sender cuts frames at a
limit. The receiver reads a frame off the stream and hands its bytes to a decoder that checks the
length again, and the version that the message carries. What serializes the messages is a library,
and stands as a parameter.

## Main definitions

* `Duocb.fromBe32`, `Duocb.Frame.wire` — the length of a frame, and an object with its length.
* `Duocb.Serde` — a type of messages with its JSON and its version field.
* `Duocb.Serde.encodeLengthPrefixed`, `Duocb.Serde.decodeLengthPrefixed` — a message and the bytes
  of its frame.
* `Duocb.Wire.readLengthPrefixed`, `Duocb.Serde.receive` — reading a frame, and a message.

## Main results

* `Duocb.Serde.decodeLengthPrefixed_eq_ok` — exactly which buffers are accepted.
* `Duocb.Serde.decode_of_read` — a frame that was read passes the decoder's checks of its length.
* `Duocb.Serde.framing` — from any chunking of encoded messages of this version, the receiver gets
  these messages and the end of the stream.
* `Duocb.Serde.framing_version` — a message of another version is sent and not received.
-/

namespace Duocb

/-! ## Frames as bytes -/

/-- A 32-bit number from its four bytes, big-endian. -/
def fromBe32 (bs : Bytes) : ℕ := bs.foldl (fun n b => n * 2 ^ 8 + b.toNat) 0

/-- A frame on the wire: its length, and its JSON text. -/
def Frame.wire (f : Frame) : Bytes := KeyAuth.be32 f.size ++ utf8 f.render

/-- A length takes four bytes. -/
lemma length_be32 (n : ℕ) : (KeyAuth.be32 n).length = 4 := rfl

/-- A length that fits in four bytes is read back from them. -/
lemma fromBe32_be32 {n : ℕ} (h : n < 2 ^ 32) : fromBe32 (KeyAuth.be32 n) = n := by
  simp only [fromBe32, KeyAuth.be32, List.foldl, UInt8.toNat_ofNat']
  omega

/-- A frame is four bytes longer than its JSON. -/
lemma length_wire (f : Frame) : f.wire.length = 4 + f.size := by
  simp [Frame.wire, length_be32, Frame.size]

/-- The types of messages: how they are written and read as JSON, and their version. -/
structure Serde (T : Type) where
  toVec : T → Except Error Bytes
  fromSlice : Bytes → Except Error T
  version : T → ℕ

/-! ## Reading -/

namespace Wire

/-- The error of a stream that ended too early. -/
def unexpectedEof : Error := .msg "early eof"

/-- Read a number of bytes, or fail at the end of the stream. -/
def readExact (n : ℕ) (chunks : List Bytes) : Except Error (Bytes × List Bytes) :=
  match Chunks.takeExact n chunks with
  | some r => .ok r
  | none => .error unexpectedEof

/-- Read the bytes of a frame, its length included. The length comes in four bytes, the highest
first, and one above the limit is refused before the body is read. -/
def readLengthPrefixed (max : ℕ) (chunks : List Bytes) : Except Error (Bytes × List Bytes) := do
  let (lenBuf, chunks) ← withContext (readExact 4 chunks) "Failed to read message length"
  let len := fromBe32 lenBuf
  bailIf (max < len) s!"Message length too large: {len} bytes"
  let (body, chunks) ← withContext (readExact len chunks) "Failed to read message body"
  return (lenBuf ++ body, chunks)

/-- The error of a stream that ends where a frame would begin. -/
def endOfStream : Error := unexpectedEof.context "Failed to read message length"

/-- Exactly the bytes that were asked for are read, and the others are left. -/
lemma readExact_append {chunks : List Bytes} {xs ys : Bytes} (h : chunks.flatten = xs ++ ys) :
    ∃ rest, readExact xs.length chunks = .ok (xs, rest) ∧ rest.flatten = ys := by
  obtain ⟨rest, hrest, hflat⟩ := Chunks.takeExact_append h
  exact ⟨rest, by rw [readExact, hrest], hflat⟩

/-- What was read and what is left make up what was there. -/
lemma readExact_eq_ok {n : ℕ} {chunks rest : List Bytes} {xs : Bytes}
    (h : readExact n chunks = .ok (xs, rest)) :
    xs.length = n ∧ chunks.flatten = xs ++ rest.flatten := by
  unfold readExact at h
  split at h
  · rename_i r hr
    obtain rfl := Except.ok.inj h
    exact Chunks.takeExact_eq_some hr
  · cases h

/-- **A frame is read** from any chunking of its bytes and of what follows. -/
lemma readLengthPrefixed_append {max : ℕ} {chunks : List Bytes} {lenBuf body ys : Bytes}
    (h4 : lenBuf.length = 4) (hlen : fromBe32 lenBuf = body.length) (hmax : body.length ≤ max)
    (h : chunks.flatten = lenBuf ++ body ++ ys) :
    ∃ rest, readLengthPrefixed max chunks = .ok (lenBuf ++ body, rest) ∧ rest.flatten = ys := by
  rw [List.append_assoc] at h
  obtain ⟨mid, hmid, hflat⟩ := readExact_append h
  obtain ⟨rest, hrest, hys⟩ := readExact_append hflat
  rw [h4] at hmid
  rw [← hlen] at hrest
  refine ⟨rest, ?_, hys⟩
  simp only [readLengthPrefixed, bind_eq_ok, withContext_eq_ok, bailIf_eq_ok, Nat.not_lt, pure,
    Except.pure, Except.ok.injEq]
  exact ⟨(lenBuf, mid), hmid, (), by rw [hlen]; exact hmax, (body, rest), hrest, rfl⟩

/-- What is read as a frame is a length not above the limit, and as many bytes. -/
lemma readLengthPrefixed_eq_ok {max : ℕ} {chunks rest : List Bytes} {data : Bytes}
    (h : readLengthPrefixed max chunks = .ok (data, rest)) :
    chunks.flatten = data ++ rest.flatten ∧ ∃ lenBuf body, data = lenBuf ++ body ∧
      lenBuf.length = 4 ∧ fromBe32 lenBuf = body.length ∧ body.length ≤ max := by
  simp only [readLengthPrefixed, bind_eq_ok, withContext_eq_ok, bailIf_eq_ok, Nat.not_lt, pure,
    Except.pure, Except.ok.injEq, Prod.mk.injEq] at h
  obtain ⟨⟨lenBuf, mid⟩, hmid, _, hmax, ⟨body, rest'⟩, hrest, rfl, rfl⟩ := h
  obtain ⟨h4, hflat⟩ := readExact_eq_ok hmid
  obtain ⟨hlen, hflat'⟩ := readExact_eq_ok hrest
  refine ⟨by rw [hflat, hflat', List.append_assoc], lenBuf, body, rfl, h4, hlen.symm, ?_⟩
  rw [hlen]
  exact hmax

/-- Nothing is read off a stream that is at its end. -/
lemma readLengthPrefixed_nil {max : ℕ} {chunks : List Bytes} (h : chunks.flatten = []) :
    readLengthPrefixed max chunks = .error endOfStream := by
  have hnone : Chunks.takeExact 4 chunks = none := by
    rw [Chunks.takeExact_eq_none, h]
    decide
  rw [readLengthPrefixed, readExact, hnone]
  rfl

end Wire

namespace Serde

variable {T : Type} (S : Serde T) (max : ℕ) (typeName : String)

/-- Encode a value as length-prefixed JSON, capped at `max` bytes. -/
def encodeLengthPrefixed (value : T) : Except Error Bytes := do
  let json ← withContext (S.toVec value) s!"Failed to serialize {typeName}"
  bailIf (max < json.length) s!"{typeName} too large: {json.length} bytes"
  return KeyAuth.be32 json.length ++ json

/-- Decode a length-prefixed JSON value with version validation. The frame must be all of the data:
too few bytes and bytes after it are refused, each with an error of its own. -/
def decodeLengthPrefixed (data : Bytes) : Except Error T := do
  bailIf (data.length < 4) s!"{typeName} too short: {data.length} bytes"
  let len := fromBe32 (data.take 4)
  bailIf (max < len) s!"{typeName} length too large: {len} bytes"
  bailIf (data.length < 4 + len)
    s!"{typeName} incomplete: expected {4 + len} bytes, got {data.length}"
  bailIf (4 + len < data.length)
    s!"{typeName} has {data.length - (4 + len)} trailing byte(s) after the frame"
  let value ← withContext (S.fromSlice ((data.drop 4).take len)) s!"Invalid {typeName} JSON"
  checkVersion S.version typeName value

/-- Read a frame and decode it. -/
def receive (chunks : List Bytes) : Except Error (T × List Bytes) := do
  let (data, chunks) ← Wire.readLengthPrefixed max chunks
  let value ← S.decodeLengthPrefixed max typeName data
  return (value, chunks)

variable {S max typeName}

/-! ## What is accepted -/

/-- A message that is encoded is its JSON, behind its length, and within the limit. -/
lemma encodeLengthPrefixed_eq_ok {value : T} {bs : Bytes} :
    S.encodeLengthPrefixed max typeName value = .ok bs ↔
      ∃ json, S.toVec value = .ok json ∧ json.length ≤ max ∧
        bs = KeyAuth.be32 json.length ++ json := by
  simp only [encodeLengthPrefixed, bind_eq_ok, withContext_eq_ok, bailIf_eq_ok, Nat.not_lt, pure,
    Except.pure, Except.ok.injEq]
  constructor
  · rintro ⟨json, hjson, _, hle, rfl⟩
    exact ⟨json, hjson, hle, rfl⟩
  · rintro ⟨json, hjson, hle, rfl⟩
    exact ⟨json, hjson, (), hle, rfl⟩

/-- **What the decoder accepts:** a length not above the limit, and exactly as many bytes of JSON of
the type, of this version.

**Proof sketch.** Each check of the decoder is one of the conditions: the first four bytes are the
length, and what stands behind them is neither more nor less. -/
theorem decodeLengthPrefixed_eq_ok {data : Bytes} {value : T} :
    S.decodeLengthPrefixed max typeName data = .ok value ↔
      ∃ lenBuf json, data = lenBuf ++ json ∧ lenBuf.length = 4 ∧ fromBe32 lenBuf = json.length ∧
        json.length ≤ max ∧ S.fromSlice json = .ok value ∧
          S.version value = DUOCB_PROTO_VERSION := by
  simp only [decodeLengthPrefixed, bind_eq_ok, withContext_eq_ok, bailIf_eq_ok, Nat.not_lt,
    checkVersion_eq_ok]
  constructor
  · rintro ⟨_, h4, _, hmax, _, hfull, _, hend, v, hjson, hversion, rfl⟩
    have htake : (data.drop 4).take (fromBe32 (data.take 4)) = data.drop 4 :=
      List.take_of_length_le (by rw [List.length_drop]; omega)
    rw [htake] at hjson
    refine ⟨data.take 4, data.drop 4, (List.take_append_drop 4 data).symm, ?_, ?_, ?_, hjson,
      hversion⟩
    · rw [List.length_take]
      omega
    · rw [List.length_drop]
      omega
    · rw [List.length_drop]
      omega
  · rintro ⟨lenBuf, json, rfl, h4, hlen, hmax, hjson, hversion⟩
    rw [List.take_left' h4, List.drop_left' h4, hlen, List.length_append, h4,
      List.take_of_length_le (Nat.le_refl _)]
    exact ⟨(), by omega, (), hmax, (), by omega, (), by omega, value, hjson, hversion, rfl⟩

/-- **The two checks agree.** What was read as a frame passes the decoder's checks of its length.

**Proof sketch.** What was read is a length and as many bytes, so the decoder's checks of the length
pass, and only the JSON and its version are left. -/
theorem decode_of_read {chunks rest : List Bytes} {data : Bytes} {value : T}
    (h : Wire.readLengthPrefixed max chunks = .ok (data, rest)) :
    S.decodeLengthPrefixed max typeName data = .ok value ↔
      S.fromSlice (data.drop 4) = .ok value ∧ S.version value = DUOCB_PROTO_VERSION := by
  obtain ⟨-, lenBuf, body, rfl, h4, hlen, hmax⟩ := Wire.readLengthPrefixed_eq_ok h
  rw [List.drop_left' h4, decodeLengthPrefixed_eq_ok]
  constructor
  · rintro ⟨lenBuf', json, heq, h4', -, -, hjson⟩
    obtain ⟨-, rfl⟩ := List.append_inj heq (h4.trans h4'.symm)
    exact hjson
  · intro hjson
    exact ⟨lenBuf, body, rfl, h4, hlen, hmax, hjson⟩

/-- **No shorter and no longer buffer.** Of two buffers that are accepted, neither is a proper
prefix of the other. -/
theorem decode_prefix_free {data data' : Bytes} {value value' : T}
    (h : S.decodeLengthPrefixed max typeName data = .ok value)
    (h' : S.decodeLengthPrefixed max typeName data' = .ok value') (hpre : data <+: data') :
    data = data' := by
  obtain ⟨lenBuf, json, rfl, h4, hlen, -⟩ := decodeLengthPrefixed_eq_ok.1 h
  obtain ⟨lenBuf', json', rfl, h4', hlen', -⟩ := decodeLengthPrefixed_eq_ok.1 h'
  obtain ⟨more, hmore⟩ := hpre
  rw [List.append_assoc] at hmore
  obtain ⟨rfl, -⟩ := List.append_inj hmore (h4.trans h4'.symm)
  refine List.IsPrefix.eq_of_length ⟨more, by rw [List.append_assoc]; exact hmore⟩ ?_
  rw [List.length_append, List.length_append, ← hlen, ← hlen']

/-! ## Sequences of messages -/

/-- A message that was encoded is received, whatever follows it.

**Proof sketch.** The length in front is that of the body and fits in four bytes, so that exactly
the frame is read off the stream. Its body is read back by the library. -/
lemma receive_encoded (hmax : max < 2 ^ 32) {value : T} {bs : Bytes}
    (henc : S.encodeLengthPrefixed max typeName value = .ok bs)
    (hversion : S.version value = DUOCB_PROTO_VERSION)
    (hjson : ∀ json, S.toVec value = .ok json → S.fromSlice json = .ok value)
    {chunks : List Bytes} {ys : Bytes} (h : chunks.flatten = bs ++ ys) :
    ∃ rest, S.receive max typeName chunks = .ok (value, rest) ∧ rest.flatten = ys := by
  obtain ⟨json, hvec, hle, rfl⟩ := encodeLengthPrefixed_eq_ok.1 henc
  have hlen : fromBe32 (KeyAuth.be32 json.length) = json.length := fromBe32_be32 (by omega)
  obtain ⟨rest, hread, hrest⟩ := Wire.readLengthPrefixed_append (length_be32 _) hlen hle h
  refine ⟨rest, ?_, hrest⟩
  simp only [receive, bind_eq_ok, pure, Except.pure, Except.ok.injEq]
  refine ⟨_, hread, value, ?_, rfl⟩
  exact decodeLengthPrefixed_eq_ok.2 ⟨_, json, rfl, length_be32 _, hlen, hle, hjson json hvec,
    hversion⟩

/-- **Framing.** Of a type of messages that survive their JSON, under a limit that fits the prefix:
for every sequence of messages of this version that the encoder accepts, and every chunking of their
frames, the receiver returns exactly these messages, and then the end of the stream. The decoder
accepts a buffer if and only if it is a length not above the limit and exactly as many bytes of JSON
of the type, of this version; so no buffer that is cut short or goes on is accepted as well.

**Proof sketch.** The first part is the rule for sequences of frames: one frame is read back from
any chunking, and an empty stream fails. The second is what the decoder accepts. For the third, a
proper prefix and an extension have another length than the one that they name. -/
theorem framing (S : Serde T) {max : ℕ} (hmax : max < 2 ^ 32) (typeName : String) :
    (∀ (msgs : List T) (frames chunks : List Bytes),
      (∀ m ∈ msgs, S.version m = DUOCB_PROTO_VERSION) →
      (∀ m ∈ msgs, ∀ json, S.toVec m = .ok json → S.fromSlice json = .ok m) →
      List.Forall₂ (fun m bs => S.encodeLengthPrefixed max typeName m = .ok bs) msgs frames →
      chunks.flatten = frames.flatten →
      Chunks.Reads (S.receive max typeName) chunks msgs Wire.endOfStream) ∧
    (∀ data value, S.decodeLengthPrefixed max typeName data = .ok value ↔
      ∃ lenBuf json, data = lenBuf ++ json ∧ lenBuf.length = 4 ∧ fromBe32 lenBuf = json.length ∧
        json.length ≤ max ∧ S.fromSlice json = .ok value ∧
        S.version value = DUOCB_PROTO_VERSION) ∧
    (∀ data value, S.decodeLengthPrefixed max typeName data = .ok value → ∀ other,
      other <+: data ∨ data <+: other → other ≠ data →
        ∃ e, S.decodeLengthPrefixed max typeName other = .error e) := by
  refine ⟨fun msgs frames chunks hversion hjson henc hchunks => ?_,
    fun data value => decodeLengthPrefixed_eq_ok, fun data value hdata other hpre hne => ?_⟩
  · have hall : List.Forall₂ (fun m bs => S.encodeLengthPrefixed max typeName m = .ok bs ∧
        m ∈ msgs) msgs frames := by
      refine List.forall₂_iff_get.2 ⟨henc.length_eq, fun i h₁ h₂ => ?_⟩
      exact ⟨(List.forall₂_iff_get.1 henc).2 i h₁ h₂, List.get_mem msgs ⟨i, h₁⟩⟩
    refine Chunks.Reads.of_items (fun m bs cs ys hm hcs => ?_) (fun cs hcs => ?_) hall hchunks
    · exact receive_encoded hmax hm.1 (hversion m hm.2) (hjson m hm.2) hcs
    · rw [receive, Wire.readLengthPrefixed_nil hcs]
      rfl
  · rcases hother : S.decodeLengthPrefixed max typeName other with e | value'
    · exact ⟨e, rfl⟩
    · rcases hpre with hpre | hpre
      · exact absurd (decode_prefix_free hother hdata hpre) hne
      · exact absurd (decode_prefix_free hdata hother hpre).symm hne

namespace Sample

/-- Key proofs, written as JSON, and read back where they are among the given ones. It serves where
the data can hold a few known messages only. -/
def proofs (known : List KeyProof) : Serde KeyProof where
  toVec m := .ok (utf8 m.toFrame.render)
  fromSlice bs := match known.find? fun m => utf8 m.toFrame.render = bs with
    | some m => .ok m
    | none => .error (.msg "expected value")
  version := KeyProof.version

/-- Two messages, their frames, and the frames cut into single bytes. -/
def msgs : List KeyProof := [.new "sig-a", .new ""]

/-- The frames as they go over the stream, each behind its length, -/
def frames : List Bytes := msgs.map fun m => KeyAuth.be32 (utf8 m.toFrame.render).length ++
  utf8 m.toFrame.render

/-- cut into chunks of one byte. -/
def chunks : List Bytes := frames.flatten.map fun b => [b]

/-- A message of the next version. -/
def newer : KeyProof := ⟨5, "sig-a"⟩

/-- A frame of a newer version. -/
def newerFrame : Bytes := KeyAuth.be32 (utf8 newer.toFrame.render).length ++
  utf8 newer.toFrame.render

end Sample

/-- Two messages that arrive byte by byte. -/
theorem framing_sample :
    Chunks.Reads ((Sample.proofs Sample.msgs).receive MAX_CONTROL_MESSAGE_SIZE "KeyProof")
      Sample.chunks Sample.msgs Wire.endOfStream := by
  have hmax : MAX_CONTROL_MESSAGE_SIZE < 2 ^ 32 := by decide
  have hframing := framing (Sample.proofs Sample.msgs) hmax "KeyProof"
  refine hframing.1 Sample.msgs Sample.frames Sample.chunks (by decide) ?_ ?_ (by decide +kernel)
  · rintro m hm json ⟨⟩
    revert m
    decide +kernel
  · refine .cons ?_ (.cons ?_ .nil)
    · decide +kernel
    · decide +kernel

/-- A message of another version is encoded and survives its JSON, and the receiver refuses it.

**Proof sketch.** The three parts are runs of the encoder and of the receiver on one frame. The
receiver refuses that frame, so it returns no sequence with a message. -/
theorem framing_version :
    (Sample.proofs [Sample.newer]).encodeLengthPrefixed MAX_CONTROL_MESSAGE_SIZE "KeyProof"
      Sample.newer = .ok Sample.newerFrame ∧
    (∀ json, (Sample.proofs [Sample.newer]).toVec Sample.newer = .ok json →
      (Sample.proofs [Sample.newer]).fromSlice json = .ok Sample.newer) ∧
    ¬ Chunks.Reads ((Sample.proofs [Sample.newer]).receive MAX_CONTROL_MESSAGE_SIZE "KeyProof")
      [Sample.newerFrame] [Sample.newer] Wire.endOfStream := by
  refine ⟨by decide +kernel, ?_, fun h => ?_⟩
  · rintro json ⟨⟩
    decide +kernel
  · have hfails : (Sample.proofs [Sample.newer]).receive MAX_CONTROL_MESSAGE_SIZE "KeyProof"
        [Sample.newerFrame] = .error (.msg "KeyProof version mismatch: expected 4, got 5") := by
      decide +kernel
    exact absurd (h.unique (.stop hfails)).1 (by simp)

end Serde

end Duocb
