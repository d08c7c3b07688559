import Duocb.Basic

set_option relaxedAutoImplicit false
set_option autoImplicit false

/-!
# Wire protocol

The control messages of both handshakes and the clipboard messages, as the JSON objects they are
on the wire. A frame is written only if its JSON text is within the cap of its stream, so the text
itself is rendered here, character by character; a frame that is read is an object the other side
chose, so decoding it checks the fields it needs and the protocol version, and ignores the rest.

The four length bytes before the text, and the checks `decode_length_prefixed` makes on them,
always succeed on what `read_length_prefixed` returns, so a frame stands for its object here. What
is left of the decoder on an object is to take the message from its fields and to check its version.

## Main definitions

* `Duocb.Frame`, `Duocb.Frame.size` — a JSON object and the length of its text.
* `Duocb.encodeLengthPrefixed`, `Duocb.decodeLengthPrefixed` — the two halves of every codec.
* `Duocb.AuthRequest` … `Duocb.ClipMsg` — the messages.

## Main results

* `Duocb.Frame.size_of_mem` — a text field is no longer than the JSON of its object.
* `Duocb.decodeLengthPrefixed_ok` — exactly which objects a decoder accepts.
* `Duocb.decodeAuthRequest_key`, `Duocb.decodeAuthRequest_pin` and their siblings — each decoder
  returns the message that was encoded.
-/

namespace Duocb

/-- Protocol version. -/
def DUOCB_PROTO_VERSION : ℕ := 4

/-- Cap for control frames (auth/pin). -/
def MAX_CONTROL_MESSAGE_SIZE : ℕ := 16 * 1024

/-- Cap for clipboard frames (the encoded frame, not the raw text). -/
def MAX_CLIP_MESSAGE_SIZE : ℕ := 1024 * 1024

/-- Maximum length for a rejection reason. -/
def MAX_REJECT_REASON_LENGTH : ℕ := 512

/-! ## JSON text -/

/-- A field value of a message. These are the values that occur in a message; a list is one of
texts. -/
inductive Value where
  | null
  | bool (b : Bool)
  | num (n : ℕ)
  | str (s : String)
  | strs (xs : List String)
  deriving DecidableEq

/-- A JSON object: its fields in order. -/
abbrev Frame : Type := List (String × Value)

/-- One character inside a JSON string. The quote, the backslash and five control characters have an
escape of one letter; the other control characters are written by their number. -/
def escapeChar (c : Char) : List Char :=
  if c = '"' then ['\\', '"']
  else if c = '\\' then ['\\', '\\']
  else if c = '\n' then ['\\', 'n']
  else if c = '\r' then ['\\', 'r']
  else if c = '\t' then ['\\', 't']
  else if c.toNat = 8 then ['\\', 'b']
  else if c.toNat = 12 then ['\\', 'f']
  else if c.toNat < 32 then '\\' :: 'u' :: '0' :: '0' :: hexByte (UInt8.ofNat c.toNat)
  else [c]

/-- A text as a JSON string. -/
def jsonString (s : String) : String :=
  "\"" ++ String.ofList (s.toList.flatMap escapeChar) ++ "\""

/-- Texts separated by commas. -/
def commaSep : List String → String
  | [] => ""
  | [s] => s
  | s :: t :: rest => s ++ "," ++ commaSep (t :: rest)

/-- A field value as JSON text. There is no space between its parts, as the source writes messages
in the compact form. -/
def Value.render : Value → String
  | null => "null"
  | bool b => if b then "true" else "false"
  | num n => toString n
  | str s => jsonString s
  | strs xs => "[" ++ commaSep (xs.map jsonString) ++ "]"

/-- A field as JSON text. -/
def renderField (f : String × Value) : String := jsonString f.1 ++ ":" ++ f.2.render

/-- The JSON text of an object. -/
def Frame.render (fs : Frame) : String := "\x7b" ++ commaSep (fs.map renderField) ++ "\x7d"

/-- The length of the JSON text in bytes. -/
def Frame.size (fs : Frame) : ℕ := (Frame.render fs).utf8ByteSize

/-! ### The text of a frame holds the text of its fields -/

/-- The bytes of a text are those of its characters. -/
lemma utf8ByteSize_ofList (cs : List Char) :
    (String.ofList cs).utf8ByteSize = (cs.map Char.utf8Size).sum := by
  induction cs with
  | nil => rfl
  | cons c cs ih =>
    rw [← List.singleton_append, String.ofList_append, String.utf8ByteSize_append, ih,
      ← String.singleton_eq_ofList, String.utf8ByteSize_singleton]
    simp

/-- An escape is at least as long as the character it stands for.

**Proof sketch.** By the branches of the escape. A character with an escape is of one byte, and any
other one is its own. -/
lemma utf8Size_le_escapeChar (c : Char) :
    c.utf8Size ≤ ((escapeChar c).map Char.utf8Size).sum := by
  have ascii : c.toNat < 128 → c.utf8Size = 1 := fun h => by
    rw [Char.utf8Size_eq_one_iff]
    exact UInt32.le_iff_toNat_le.2 (by simpa using Nat.le_of_lt_succ h)
  have quote : '"'.utf8Size = 1 := by decide
  have back : '\\'.utf8Size = 1 := by decide
  unfold escapeChar
  split_ifs with h1 h2 h3 h4 h5 h6 h7 h8
  · subst h1; decide
  · subst h2; decide
  · subst h3; decide
  · subst h4; decide
  · subst h5; decide
  · rw [ascii (by omega)]; simp [back]
  · rw [ascii (by omega)]; simp [back]
  · rw [ascii (by omega)]; simp [back]
  · simp

/-- A text is not longer than its JSON form, which only adds quotes and escapes.

**Proof sketch.** By induction on the characters, with the bound for each escape. -/
lemma utf8ByteSize_le_jsonString (s : String) :
    s.utf8ByteSize ≤ (jsonString s).utf8ByteSize := by
  have h : ∀ cs : List Char, (cs.map Char.utf8Size).sum ≤
      ((cs.flatMap escapeChar).map Char.utf8Size).sum := by
    intro cs
    induction cs with
    | nil => simp
    | cons c cs ih =>
      have := utf8Size_le_escapeChar c
      simp only [List.flatMap_cons, List.map_append, List.sum_append, List.map_cons,
        List.sum_cons]
      omega
  have hs := h s.toList
  rw [← utf8ByteSize_ofList, ← utf8ByteSize_ofList, String.ofList_toList] at hs
  simp only [jsonString, String.utf8ByteSize_append]
  omega

/-- A text in a list that is separated by commas is not longer than the list. -/
lemma utf8ByteSize_le_commaSep {s : String} {ss : List String} (hs : s ∈ ss) :
    s.utf8ByteSize ≤ (commaSep ss).utf8ByteSize := by
  induction ss with
  | nil => simp at hs
  | cons t ss ih =>
    rcases ss with _ | ⟨u, ss⟩
    · simp only [List.mem_singleton] at hs
      simp [commaSep, hs]
    · simp only [commaSep, String.utf8ByteSize_append]
      rcases List.mem_cons.1 hs with rfl | hs
      · omega
      · have := ih hs
        omega

/-- A text field is no longer than its frame. -/
lemma Frame.size_of_mem {fs : Frame} {key s : String} (h : (key, .str s) ∈ fs) :
    s.utf8ByteSize ≤ fs.size := by
  have hfield := utf8ByteSize_le_commaSep (List.mem_map_of_mem (f := renderField) h)
  have hs := utf8ByteSize_le_jsonString s
  simp only [renderField, Value.render, String.utf8ByteSize_append] at hfield
  simp only [Frame.size, Frame.render, String.utf8ByteSize_append]
  omega

/-! ## Encoding and decoding -/

/-- Encode a value as length-prefixed JSON, capped at `max` encoded bytes. -/
def encodeLengthPrefixed (value : Frame) (max : ℕ) (typeName : String) : Except Error Frame :=
  if value.size > max then .error (.msg s!"{typeName} too large: {value.size} bytes")
  else .ok value

/-- Exactly the frames within the limit are encoded, and they are written as they are. -/
lemma encodeLengthPrefixed_ok {value f : Frame} {max : ℕ} {typeName : String} :
    encodeLengthPrefixed value max typeName = .ok f ↔ f = value ∧ value.size ≤ max := by
  unfold encodeLengthPrefixed
  split
  · simp only [reduceCtorEq, false_iff, not_and]; omega
  · simp only [Except.ok.injEq]
    exact ⟨fun h => ⟨h.symm, by omega⟩, fun h => h.1.symm⟩

/-- The value of a field that stands in the object exactly once. -/
def Frame.field (fs : Frame) (key : String) : Option Value :=
  match fs.filter fun f => f.1 = key with
  | [f] => some f.2
  | _ => none

/-- A mandatory text field. -/
def Frame.str (fs : Frame) (key : String) : Option String :=
  match fs.field key with
  | some (.str s) => some s
  | _ => none

/-- The text of a field stands in the frame under its key.

**Proof sketch.** The fields under the key are found by a filter, and there is exactly one. -/
lemma Frame.mem_of_str {fs : Frame} {key s : String} (h : fs.str key = some s) :
    (key, .str s) ∈ fs := by
  unfold Frame.str Frame.field at h
  split at h
  · rename_i v hv
    split at hv
    · rename_i f hf
      have hmem : f ∈ fs.filter fun f => f.1 = key := by rw [hf]; exact List.mem_singleton_self f
      obtain ⟨hin, hkey⟩ := List.mem_filter.1 hmem
      obtain rfl : f.1 = key := by simpa using hkey
      obtain rfl : v = s := by simpa using h
      rw [← Option.some.inj hv]
      exact hin
    · simp at hv
  · simp at h

/-- A mandatory unsigned number of a given width. -/
def Frame.uint (fs : Frame) (bits : ℕ) (key : String) : Option ℕ :=
  match fs.field key with
  | some (.num n) => if n < 2 ^ bits then some n else none
  | _ => none

/-- A mandatory flag. -/
def Frame.bool (fs : Frame) (key : String) : Option Bool :=
  match fs.field key with
  | some (.bool b) => some b
  | _ => none

/-- A mandatory list of texts. -/
def Frame.strs (fs : Frame) (key : String) : Option (List String) :=
  match fs.field key with
  | some (.strs xs) => some xs
  | _ => none

/-- A text field that may be missing or null. A field that is there twice is refused, and so is one
of another kind. -/
def Frame.optStr (fs : Frame) (key : String) : Option (Option String) :=
  match fs.filter fun f => f.1 = key with
  | [] => some none
  | [(_, .null)] => some none
  | [(_, .str s)] => some (some s)
  | _ => none

/-- A number field that may be missing or null. A number above 64 bits is refused, and so are a
field that is there twice and one of another kind. -/
def Frame.optNum (fs : Frame) (key : String) : Option (Option ℕ) :=
  match fs.filter fun f => f.1 = key with
  | [] => some none
  | [(_, .null)] => some none
  | [(_, .num n)] => if n < 2 ^ 64 then some (some n) else none
  | _ => none

/-- The last check of every decoder: a message that was read carries the version of the protocol.
The decoder of bytes and the decoder of objects both end with it. -/
def checkVersion {T : Type} (version : T → ℕ) (typeName : String) (value : T) : Except Error T :=
  if version value = DUOCB_PROTO_VERSION then .ok value
  else .error (.msg
    s!"{typeName} version mismatch: expected {DUOCB_PROTO_VERSION}, got {version value}")

/-- What passes the check is the message itself, of this version. -/
@[simp] lemma checkVersion_eq_ok {T : Type} {version : T → ℕ} {typeName : String}
    {value value' : T} : checkVersion version typeName value = .ok value' ↔
      version value = DUOCB_PROTO_VERSION ∧ value = value' := by
  unfold checkVersion
  split <;> simp_all

/-- The variant that a buffered field names: by its name, or by its index among the names. -/
def Frame.variant (fs : Frame) (names : List String) (key : String) : Option String :=
  match fs.field key with
  | some (.str s) => some s
  | some (.num n) => names[n]?
  | _ => none

/-- Decode a frame with version validation. -/
def decodeLengthPrefixed {T : Type} (fs : Frame) (ofFrame : Frame → Option T) (version : T → ℕ)
    (typeName : String) : Except Error T :=
  match ofFrame fs with
  | none => .error (.msg s!"Invalid {typeName} JSON")
  | some value => checkVersion version typeName value

/-- A decoder succeeds exactly on the objects that parse and carry this version.

**Proof sketch.** Both sides ask for an object that parses, and the check of its version passes for
this version alone. -/
lemma decodeLengthPrefixed_ok {T : Type} {fs : Frame} {ofFrame : Frame → Option T}
    {version : T → ℕ} {typeName : String} {value : T} :
    decodeLengthPrefixed fs ofFrame version typeName = .ok value ↔
      ofFrame fs = some value ∧ version value = DUOCB_PROTO_VERSION := by
  unfold decodeLengthPrefixed
  cases ofFrame fs with
  | none => simp
  | some v =>
    simp only [checkVersion_eq_ok, Option.some.injEq]
    constructor
    · rintro ⟨hversion, rfl⟩
      exact ⟨rfl, hversion⟩
    · rintro ⟨rfl, hversion⟩
      exact ⟨hversion, rfl⟩

/-! ## Handshake messages -/

/-- Authentication request, the dialer's first frame. The method selects the auth path. -/
inductive AuthRequest where
  | key (version : ℕ) (publicKey nonce : String)
  | pin (version : ℕ) (pakes : List String)
  deriving DecidableEq

namespace AuthRequest

/-- The protocol version of a request. -/
def version : AuthRequest → ℕ
  | key v _ _ | pin v _ => v

/-- Serialize, tagged by `method`. -/
def toFrame : AuthRequest → Frame
  | key v pk n =>
    [("method", .str "Key"), ("version", .num v), ("public_key", .str pk), ("nonce", .str n)]
  | pin v ps => [("method", .str "Pin"), ("version", .num v), ("pakes", .strs ps)]

/-- Deserialize. The tag is read straight from the text of the object, where only a string names a
variant: the JSON reader refuses a number in the place of an identifier. -/
def ofFrame (fs : Frame) : Option AuthRequest := do
  match ← fs.str "method" with
  | "Key" => return key (← fs.uint 16 "version") (← fs.str "public_key") (← fs.str "nonce")
  | "Pin" => return pin (← fs.uint 16 "version") (← fs.strs "pakes")
  | _ => none

/-- The request of the `Key` method. -/
def keyRequest (publicKey nonce : String) : AuthRequest := key DUOCB_PROTO_VERSION publicKey nonce

/-- The request of the `Pin` method. -/
def pinRequest (pakes : List String) : AuthRequest := pin DUOCB_PROTO_VERSION pakes

end AuthRequest

/-- Listener's authenticated challenge in configure mode. It has the listener's key and nonce, and
the proof that binds both to the dialer's. -/
structure KeyChallenge where
  version : ℕ
  publicKey : String
  nonce : String
  proof : String
  deriving DecidableEq

namespace KeyChallenge

/-- A challenge of this version. -/
def new (publicKey nonce proof : String) : KeyChallenge :=
  ⟨DUOCB_PROTO_VERSION, publicKey, nonce, proof⟩

/-- The fields that a challenge is written with. -/
def toFrame (m : KeyChallenge) : Frame :=
  [("version", .num m.version), ("public_key", .str m.publicKey), ("nonce", .str m.nonce),
    ("proof", .str m.proof)]

/-- A challenge is read from its fields, whatever others there are. -/
def ofFrame (fs : Frame) : Option KeyChallenge := do
  return ⟨← fs.uint 16 "version", ← fs.str "public_key", ← fs.str "nonce", ← fs.str "proof"⟩

end KeyChallenge

/-- Dialer's proof after verifying a `KeyChallenge`. -/
structure KeyProof where
  version : ℕ
  proof : String
  deriving DecidableEq

namespace KeyProof

/-- A proof of this version. -/
def new (proof : String) : KeyProof := ⟨DUOCB_PROTO_VERSION, proof⟩

/-- The fields that a proof is written with. -/
def toFrame (m : KeyProof) : Frame := [("version", .num m.version), ("proof", .str m.proof)]

/-- A proof is read from its fields, whatever others there are. -/
def ofFrame (fs : Frame) : Option KeyProof := do
  return ⟨← fs.uint 16 "version", ← fs.str "proof"⟩

end KeyProof

/-- Listener's reply to a PIN request: its own SPAKE2 message for each slot. -/
structure PinChallenge where
  version : ℕ
  pakes : List String
  deriving DecidableEq

namespace PinChallenge

/-- A challenge of this version, with one message for each slot. -/
def new (pakes : List String) : PinChallenge := ⟨DUOCB_PROTO_VERSION, pakes⟩

/-- The fields that a challenge is written with. -/
def toFrame (m : PinChallenge) : Frame := [("version", .num m.version), ("pakes", .strs m.pakes)]

/-- A challenge is read from its fields, whatever others there are. -/
def ofFrame (fs : Frame) : Option PinChallenge := do
  return ⟨← fs.uint 16 "version", ← fs.strs "pakes"⟩

end PinChallenge

/-- Dialer's key-confirmation MACs, one per PAKE slot. -/
structure PinResponse where
  version : ℕ
  confirms : List String
  deriving DecidableEq

namespace PinResponse

/-- A response of this version, with one confirmation for each slot. -/
def new (confirms : List String) : PinResponse := ⟨DUOCB_PROTO_VERSION, confirms⟩

/-- The fields that a response is written with. -/
def toFrame (m : PinResponse) : Frame :=
  [("version", .num m.version), ("confirms", .strs m.confirms)]

/-- A response is read from its fields, whatever others there are. -/
def ofFrame (fs : Frame) : Option PinResponse := do
  return ⟨← fs.uint 16 "version", ← fs.strs "confirms"⟩

end PinResponse

/-- An optional field, left out when there is no value. -/
def optField (key : String) (v : Option Value) : Frame := (v.map fun v => (key, v)).toList

/-- The longest run of whole characters from the start that fits in `max` bytes. -/
def takeBytes : List Char → ℕ → List Char
  | [], _ => []
  | c :: cs, max => if c.utf8Size ≤ max then c :: takeBytes cs (max - c.utf8Size) else []

/-- Truncate a rejection reason to the maximum allowed length, at a character boundary. -/
def truncateReason (reason : String) (maxLen : ℕ) : String :=
  if reason.utf8ByteSize > maxLen then
    String.ofList (takeBytes reason.toList (maxLen - "...".utf8ByteSize)) ++ "..."
  else reason

/-- Listener's final PIN-auth verdict. An acceptance names the slot that was matched and confirms
its key; a rejection gives a reason. -/
structure PinConfirm where
  version : ℕ
  accepted : Bool
  reason : Option String
  slot : Option ℕ
  confirm : Option String
  deriving DecidableEq

namespace PinConfirm

/-- The verdict on a dialer that is paired: the slot that it proved, and the confirmation of that
slot. -/
def accept (slot : ℕ) (confirm : String) : PinConfirm :=
  ⟨DUOCB_PROTO_VERSION, true, none, some slot, some confirm⟩

/-- The verdict on a dialer that is turned away, with a reason that is cut to what a frame can
carry. -/
def rejected (reason : String) : PinConfirm :=
  ⟨DUOCB_PROTO_VERSION, false, some (truncateReason reason MAX_REJECT_REASON_LENGTH), none, none⟩

/-- The fields that a verdict is written with. A field without a value is left out. -/
def toFrame (m : PinConfirm) : Frame :=
  [("version", .num m.version), ("accepted", .bool m.accepted)] ++
    optField "reason" (m.reason.map .str) ++ optField "slot" (m.slot.map .num) ++
    optField "confirm" (m.confirm.map .str)

/-- A verdict is read from its fields. A field that is left out, or is null, has no value. -/
def ofFrame (fs : Frame) : Option PinConfirm := do
  return ⟨← fs.uint 16 "version", ← fs.bool "accepted", ← fs.optStr "reason", ← fs.optNum "slot",
    ← fs.optStr "confirm"⟩

end PinConfirm

/-- Final configure-mode authentication verdict. -/
structure AuthResponse where
  version : ℕ
  accepted : Bool
  reason : Option String
  deriving DecidableEq

namespace AuthResponse

/-- The verdict on a dialer that is paired. -/
def accept : AuthResponse := ⟨DUOCB_PROTO_VERSION, true, none⟩

/-- The verdict on a dialer that is turned away, with a reason that is cut to what a frame can
carry. -/
def rejected (reason : String) : AuthResponse :=
  ⟨DUOCB_PROTO_VERSION, false, some (truncateReason reason MAX_REJECT_REASON_LENGTH)⟩

/-- The fields that a verdict is written with. A reason is left out if there is none. -/
def toFrame (m : AuthResponse) : Frame :=
  [("version", .num m.version), ("accepted", .bool m.accepted)] ++
    optField "reason" (m.reason.map .str)

/-- A verdict is read from its fields. A reason that is left out, or is null, is none. -/
def ofFrame (fs : Frame) : Option AuthResponse := do
  return ⟨← fs.uint 16 "version", ← fs.bool "accepted", ← fs.optStr "reason"⟩

end AuthResponse

/-- Card setup's one payload: the sender's signed identity card, encoded. -/
structure CardOffer where
  version : ℕ
  card : String
  deriving DecidableEq

namespace CardOffer

/-- An offer of this version. -/
def new (card : String) : CardOffer := ⟨DUOCB_PROTO_VERSION, card⟩

/-- The fields that an offer is written with. -/
def toFrame (m : CardOffer) : Frame := [("version", .num m.version), ("card", .str m.card)]

/-- An offer is read from its fields, whatever others there are. -/
def ofFrame (fs : Frame) : Option CardOffer := do
  return ⟨← fs.uint 16 "version", ← fs.str "card"⟩

end CardOffer

/-! ## Clipboard messages -/

/-- What a clipboard message carries. -/
inductive ClipBody where
  | item (text : String) (sentAtMs : ℕ)
  | pullLatest
  | latest (text : String) (sentAtMs : ℕ)
  deriving DecidableEq

/-- A frame on the post-auth session stream. -/
structure ClipMsg where
  version : ℕ
  body : ClipBody
  deriving DecidableEq

namespace ClipMsg

/-- A frame that carries a new item. -/
def item (text : String) (sentAtMs : ℕ) : ClipMsg := ⟨DUOCB_PROTO_VERSION, .item text sentAtMs⟩

/-- A frame that asks for the latest item. -/
def pullLatest : ClipMsg := ⟨DUOCB_PROTO_VERSION, .pullLatest⟩

/-- A frame that carries the latest item, in answer to a pull. -/
def latest (text : String) (sentAtMs : ℕ) : ClipMsg := ⟨DUOCB_PROTO_VERSION, .latest text sentAtMs⟩

/-- Serialize: the body's fields, tagged by `kind`, stand beside the version. -/
def toFrame (m : ClipMsg) : Frame :=
  ("version", .num m.version) :: match m.body with
  | .item t at' => [("kind", .str "item"), ("text", .str t), ("sent_at_ms", .num at')]
  | .pullLatest => [("kind", .str "pull_latest")]
  | .latest t at' => [("kind", .str "latest"), ("text", .str t), ("sent_at_ms", .num at')]

/-- Deserialize. The body is flattened into the message, so its fields are buffered before they are
read, and the tag of a buffered body may also be the index of the variant. -/
def ofFrame (fs : Frame) : Option ClipMsg := do
  let version ← fs.uint 16 "version"
  match ← fs.variant ["item", "pull_latest", "latest"] "kind" with
  | "item" => return ⟨version, .item (← fs.str "text") (← fs.uint 64 "sent_at_ms")⟩
  | "pull_latest" => return ⟨version, .pullLatest⟩
  | "latest" => return ⟨version, .latest (← fs.str "text") (← fs.uint 64 "sent_at_ms")⟩
  | _ => none

end ClipMsg

/-! ## The codec of each message -/

/-- An authentication request has to fit in a control message. -/
def encodeAuthRequest (m : AuthRequest) : Except Error Frame :=
  encodeLengthPrefixed m.toFrame MAX_CONTROL_MESSAGE_SIZE "AuthRequest"

/-- An authentication request is decoded, and its version checked. -/
def decodeAuthRequest (fs : Frame) : Except Error AuthRequest :=
  decodeLengthPrefixed fs AuthRequest.ofFrame AuthRequest.version "AuthRequest"

/-- A key challenge has to fit in a control message. -/
def encodeKeyChallenge (m : KeyChallenge) : Except Error Frame :=
  encodeLengthPrefixed m.toFrame MAX_CONTROL_MESSAGE_SIZE "KeyChallenge"

/-- A key challenge is decoded, and its version checked. -/
def decodeKeyChallenge (fs : Frame) : Except Error KeyChallenge :=
  decodeLengthPrefixed fs KeyChallenge.ofFrame KeyChallenge.version "KeyChallenge"

/-- A key proof has to fit in a control message. -/
def encodeKeyProof (m : KeyProof) : Except Error Frame :=
  encodeLengthPrefixed m.toFrame MAX_CONTROL_MESSAGE_SIZE "KeyProof"

/-- A key proof is decoded, and its version checked. -/
def decodeKeyProof (fs : Frame) : Except Error KeyProof :=
  decodeLengthPrefixed fs KeyProof.ofFrame KeyProof.version "KeyProof"

/-- A PIN challenge has to fit in a control message. -/
def encodePinChallenge (m : PinChallenge) : Except Error Frame :=
  encodeLengthPrefixed m.toFrame MAX_CONTROL_MESSAGE_SIZE "PinChallenge"

/-- A PIN challenge is decoded, and its version checked. -/
def decodePinChallenge (fs : Frame) : Except Error PinChallenge :=
  decodeLengthPrefixed fs PinChallenge.ofFrame PinChallenge.version "PinChallenge"

/-- A PIN response has to fit in a control message. -/
def encodePinResponse (m : PinResponse) : Except Error Frame :=
  encodeLengthPrefixed m.toFrame MAX_CONTROL_MESSAGE_SIZE "PinResponse"

/-- A PIN response is decoded, and its version checked. -/
def decodePinResponse (fs : Frame) : Except Error PinResponse :=
  decodeLengthPrefixed fs PinResponse.ofFrame PinResponse.version "PinResponse"

/-- A PIN verdict has to fit in a control message. -/
def encodePinConfirm (m : PinConfirm) : Except Error Frame :=
  encodeLengthPrefixed m.toFrame MAX_CONTROL_MESSAGE_SIZE "PinConfirm"

/-- A PIN verdict is decoded, and its version checked. -/
def decodePinConfirm (fs : Frame) : Except Error PinConfirm :=
  decodeLengthPrefixed fs PinConfirm.ofFrame PinConfirm.version "PinConfirm"

/-- A verdict on a key has to fit in a control message. -/
def encodeAuthResponse (m : AuthResponse) : Except Error Frame :=
  encodeLengthPrefixed m.toFrame MAX_CONTROL_MESSAGE_SIZE "AuthResponse"

/-- A verdict on a key is decoded, and its version checked. -/
def decodeAuthResponse (fs : Frame) : Except Error AuthResponse :=
  decodeLengthPrefixed fs AuthResponse.ofFrame AuthResponse.version "AuthResponse"

/-- A card offer has to fit in a control message. -/
def encodeCardOffer (m : CardOffer) : Except Error Frame :=
  encodeLengthPrefixed m.toFrame MAX_CONTROL_MESSAGE_SIZE "CardOffer"

/-- A card offer is decoded, and its version checked. -/
def decodeCardOffer (fs : Frame) : Except Error CardOffer :=
  decodeLengthPrefixed fs CardOffer.ofFrame CardOffer.version "CardOffer"

/-- A clipboard frame has to fit in a clip message, which is larger than a control message. -/
def encodeClipMsg (m : ClipMsg) : Except Error Frame :=
  encodeLengthPrefixed m.toFrame MAX_CLIP_MESSAGE_SIZE "ClipMsg"

/-- A clipboard frame is decoded, and its version checked. -/
def decodeClipMsg (fs : Frame) : Except Error ClipMsg :=
  decodeLengthPrefixed fs ClipMsg.ofFrame ClipMsg.version "ClipMsg"

/-! ## Round trips -/

section RoundTrip

attribute [local simp] Frame.field Frame.str Frame.uint Frame.bool Frame.strs Frame.optStr
  Frame.optNum Frame.variant
  decodeLengthPrefixed_ok DUOCB_PROTO_VERSION

/-- A key request is decoded as it was written. -/
lemma decodeAuthRequest_key (pk n : String) :
    decodeAuthRequest (AuthRequest.keyRequest pk n).toFrame = .ok (.keyRequest pk n) := by
  simp [decodeAuthRequest, AuthRequest.ofFrame, AuthRequest.toFrame, AuthRequest.keyRequest,
    AuthRequest.version]

/-- A PIN request is decoded as it was written. -/
lemma decodeAuthRequest_pin (ps : List String) :
    decodeAuthRequest (AuthRequest.pinRequest ps).toFrame = .ok (.pinRequest ps) := by
  simp [decodeAuthRequest, AuthRequest.ofFrame, AuthRequest.toFrame, AuthRequest.pinRequest,
    AuthRequest.version]

/-- A key challenge is decoded as it was written. -/
lemma decodeKeyChallenge_toFrame (pk n p : String) :
    decodeKeyChallenge (KeyChallenge.new pk n p).toFrame = .ok (.new pk n p) := by
  simp [decodeKeyChallenge, KeyChallenge.ofFrame, KeyChallenge.toFrame, KeyChallenge.new]

/-- A key proof is decoded as it was written. -/
lemma decodeKeyProof_toFrame (p : String) :
    decodeKeyProof (KeyProof.new p).toFrame = .ok (.new p) := by
  simp [decodeKeyProof, KeyProof.ofFrame, KeyProof.toFrame, KeyProof.new]

/-- A PIN challenge is decoded as it was written. -/
lemma decodePinChallenge_toFrame (ps : List String) :
    decodePinChallenge (PinChallenge.new ps).toFrame = .ok (.new ps) := by
  simp [decodePinChallenge, PinChallenge.ofFrame, PinChallenge.toFrame, PinChallenge.new]

/-- A PIN response is decoded as it was written. -/
lemma decodePinResponse_toFrame (cs : List String) :
    decodePinResponse (PinResponse.new cs).toFrame = .ok (.new cs) := by
  simp [decodePinResponse, PinResponse.ofFrame, PinResponse.toFrame, PinResponse.new]

/-- A verdict that names a slot is decoded as it was written, if the slot fits in 64 bits. -/
lemma decodePinConfirm_accept {slot : ℕ} (hs : slot < 2 ^ 64) (c : String) :
    decodePinConfirm (PinConfirm.accept slot c).toFrame = .ok (.accept slot c) := by
  have hs' : slot < 18446744073709551616 := hs
  simp [decodePinConfirm, PinConfirm.ofFrame, PinConfirm.toFrame, PinConfirm.accept, optField, hs']

/-- A verdict with a reason is decoded as it was written. -/
lemma decodePinConfirm_rejected (reason : String) :
    decodePinConfirm (PinConfirm.rejected reason).toFrame = .ok (.rejected reason) := by
  simp [decodePinConfirm, PinConfirm.ofFrame, PinConfirm.toFrame, PinConfirm.rejected, optField]

/-- A verdict without a reason is decoded as it was written. -/
lemma decodeAuthResponse_accept :
    decodeAuthResponse AuthResponse.accept.toFrame = .ok .accept := by
  simp [decodeAuthResponse, AuthResponse.ofFrame, AuthResponse.toFrame, AuthResponse.accept,
    optField]

/-- A verdict with a reason is decoded as it was written. -/
lemma decodeAuthResponse_rejected (reason : String) :
    decodeAuthResponse (AuthResponse.rejected reason).toFrame = .ok (.rejected reason) := by
  simp [decodeAuthResponse, AuthResponse.ofFrame, AuthResponse.toFrame, AuthResponse.rejected,
    optField]

/-- A card offer is decoded as it was written. -/
lemma decodeCardOffer_toFrame (card : String) :
    decodeCardOffer (CardOffer.new card).toFrame = .ok (.new card) := by
  simp [decodeCardOffer, CardOffer.ofFrame, CardOffer.toFrame, CardOffer.new]

/-- A frame with an item is decoded as it was written, if its time fits in 64 bits. -/
lemma decodeClipMsg_item (t : String) {ms : ℕ} (h : ms < 2 ^ 64) :
    decodeClipMsg (ClipMsg.item t ms).toFrame = .ok (.item t ms) := by
  have h' : ms < 18446744073709551616 := h
  simp [decodeClipMsg, ClipMsg.ofFrame, ClipMsg.toFrame, ClipMsg.item, h']

/-- A pull is decoded as it was written. -/
lemma decodeClipMsg_pullLatest : decodeClipMsg ClipMsg.pullLatest.toFrame = .ok .pullLatest := by
  simp [decodeClipMsg, ClipMsg.ofFrame, ClipMsg.toFrame, ClipMsg.pullLatest]

/-- A frame with the latest item is decoded as it was written, if its time fits in 64 bits. -/
lemma decodeClipMsg_latest (t : String) {ms : ℕ} (h : ms < 2 ^ 64) :
    decodeClipMsg (ClipMsg.latest t ms).toFrame = .ok (.latest t ms) := by
  have h' : ms < 18446744073709551616 := h
  simp [decodeClipMsg, ClipMsg.ofFrame, ClipMsg.toFrame, ClipMsg.latest, h']

end RoundTrip

end Duocb
