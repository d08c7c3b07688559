import Duocb.Framing.Objects

set_option relaxedAutoImplicit false
set_option autoImplicit false

/-!
# The JSON of a card

A card is a signed event, and its text is the JSON of that event: an object with the id, the author,
the two tags of a card, the payload as a text, and the signature. The event library writes it when
it signs, and reads it back when a card is handed over.

## Main definitions

* `Duocb.CardContent.text`, `Duocb.CardDraft.text` — the JSON of a payload, and of a signed event.
* `Duocb.Nostr.Mints` — what the library promises of signing.
* `Duocb.Json.readEvent`, `Duocb.Nostr.ofJson` — a reader of events, and a library that uses it.
* `Duocb.Nostr.signedEvent`, `Duocb.Nostr.signedCard` — what that library signs for a payload.

## Main results

* `Duocb.Json.readEvent_text` — an event is read back from its JSON.
* `Duocb.Nostr.ofJson_mints` — that library keeps the promises.
-/

namespace Duocb

/-! ## What is signed -/

/-- The payload of a card as an object. -/
def CardContent.toFrame (c : CardContent) : Frame :=
  [("version", .num c.version), ("name", .str c.name), ("not_before", .num c.notBefore),
    ("not_after", .num c.notAfter)]

/-- The JSON of a payload. -/
def CardContent.text (c : CardContent) : String := c.toFrame.render

/-- The JSON of a signed event: its id, its author, what was drafted, and the signature. It is the
compact form, with the fields and the two tags in the order in which the library writes them. -/
def CardDraft.text (d : CardDraft) (key : PublicKey) (id sig : String) : String :=
  "\x7b\"id\":" ++ jsonString id ++ ",\"pubkey\":" ++ jsonString key.toHex ++
    ",\"created_at\":" ++ toString d.createdAt ++ ",\"kind\":" ++ toString d.kind ++
    ",\"tags\":[[\"d\"," ++ jsonString d.identifier ++ "],[\"expiration\"," ++
    jsonString (toString d.expiration) ++ "]],\"content\":" ++ jsonString d.content ++
    ",\"sig\":" ++ jsonString sig ++ "\x7d"

/-- What the library promises of minting, beside what it promises anyway: payloads are written as
objects, and whatever is drafted is signed, into the text of the event format, with an id of 32
bytes and a signature of 64 in hexadecimal. -/
structure Nostr.Mints (N : Nostr) : Prop extends N.Lawful where
  writes : ∀ c, N.contentToJson c = .ok c.text
  signs : ∀ key d, ∃ (e : CardEvent) (id sig : Bytes), N.sign key d = .ok e ∧ id.length = 32 ∧
    sig.length = 64 ∧ e.json = d.text key (toHex id) (toHex sig)

/-! ## Reading it back -/

namespace Json

/-- Skip what has to stand here. -/
def expect (text : String) (cs : List Char) : Option (List Char) :=
  if text.toList.isPrefixOf cs then some (cs.drop text.toList.length) else none

/-- Read a text in its quotes. -/
def readText (cs : List Char) : Option (String × List Char) := do
  let cs ← expect "\"" cs
  let (s, cs) ← readChars cs
  return (String.ofList s, cs)

/-- Read a number that stands alone. -/
def readWhole (s : String) : Option ℕ := (readNat s.toList).map Prod.fst

/-- Read the text of an event. The fields are read in the order in which they are written. The key
must be one in hexadecimal digits, and an expiration that is no whole number is none. -/
def readEvent (s : String) : Option CardEvent := do
  let (_, cs) ← (expect "\x7b\"id\":" s.toList).bind readText
  let (key, cs) ← (expect ",\"pubkey\":" cs).bind readText
  let (createdAt, cs) ← (expect ",\"created_at\":" cs).bind readNat
  let (kind, cs) ← (expect ",\"kind\":" cs).bind readNat
  let (identifier, cs) ← (expect ",\"tags\":[[\"d\"," cs).bind readText
  let (expiration, cs) ← (expect "],[\"expiration\"," cs).bind readText
  let (content, _) ← (expect "]],\"content\":" cs).bind readText
  let bytes ← hexDecode key.toList
  if h : bytes.length = 32 then
    return ⟨⟨bytes, h⟩, createdAt, kind, some identifier, readWhole expiration, content, s⟩
  else none

/-- The payload of a card in an object. -/
def readContent (s : String) : Option CardContent := do
  match ← readFrame s with
  | [(_, .num version), (_, .str name), (_, .num notBefore), (_, .num notAfter)] =>
    return ⟨version, name, notBefore, notAfter⟩
  | _ => none

/-- What has to stand somewhere is skipped if it stands there. -/
lemma expect_append (text : String) (rest : List Char) :
    expect text (text.toList ++ rest) = some rest := by
  have hstands : text.toList.isPrefixOf (text.toList ++ rest) = true :=
    List.isPrefixOf_iff_prefix.2 (List.prefix_append _ _)
  rw [expect, if_pos hstands, List.drop_left]

/-- A text is read back from its JSON string. -/
lemma readText_jsonString (s : String) (rest : List Char) :
    readText ((jsonString s).toList ++ rest) = some (s, rest) := by
  obtain ⟨body, hbody, hread⟩ := readChars_jsonString s rest
  have hquote : expect "\"" ('"' :: body) = some body := expect_append "\"" body
  simp only [readText, hbody, hquote, Option.bind_eq_bind, Option.bind_some, hread,
    String.ofList_toList]
  rfl

/-- A number that stands alone is read back. -/
lemma readWhole_toString (n : ℕ) : readWhole (toString n) = some n := by
  have hread : readNat ((toString n).toList ++ []) = some (n, []) :=
    readNat_toString n fun c hc => by cases hc
  rw [List.append_nil] at hread
  rw [readWhole, hread]
  rfl

/-- **An event is read back from its JSON**, whatever its id and its signature are.

**Proof sketch.** By reading the text from left to right: each field stands behind its name, a
number ends at a comma, and a text ends at its quote. -/
theorem readEvent_text (d : CardDraft) (key : PublicKey) (id sig : String) :
    readEvent (d.text key id sig) = some ⟨key, d.createdAt, d.kind, some d.identifier,
      some d.expiration, d.content, d.text key id sig⟩ := by
  -- a number is followed by a comma
  have hnat : ∀ (n : ℕ) (text : String) (rest : List Char), Stops (text.toList ++ rest) →
      readNat ((toString n).toList ++ (text.toList ++ rest)) = some (n, text.toList ++ rest) :=
    fun n text rest h => readNat_toString n h
  have hkind : ∀ rest, Stops (",\"kind\":".toList ++ rest) := fun rest c hc => by
    cases hc
    rfl
  have htags : ∀ rest, Stops (",\"tags\":[[\"d\",".toList ++ rest) := fun rest c hc => by
    cases hc
    rfl
  have hkey : hexDecode key.toHex.toList = some key.bytes := by
    rw [PublicKey.toHex, toHex, String.toList_ofList, hexDecode_flatMap]
  have htext : (d.text key id sig).toList = "\x7b\"id\":".toList ++ ((jsonString id).toList ++
      (",\"pubkey\":".toList ++ ((jsonString key.toHex).toList ++ (",\"created_at\":".toList ++
      ((toString d.createdAt).toList ++ (",\"kind\":".toList ++ ((toString d.kind).toList ++
      (",\"tags\":[[\"d\",".toList ++ ((jsonString d.identifier).toList ++
      ("],[\"expiration\",".toList ++ ((jsonString (toString d.expiration)).toList ++
      ("]],\"content\":".toList ++ ((jsonString d.content).toList ++
      (",\"sig\":" ++ jsonString sig ++ "\x7d").toList))))))))))))) := by
    unfold CardDraft.text
    simp only [String.toList_append, List.append_assoc]
  unfold readEvent
  rw [htext]
  simp only [expect_append, readText_jsonString, hnat _ _ _ (hkind _), hnat _ _ _ (htags _),
    Option.bind_eq_bind, Option.bind_some, hkey, readWhole_toString, key.length_eq, dif_pos]
  rfl

/-- A payload is read back from its JSON. -/
lemma readContent_text (c : CardContent) : readContent c.text = some c := by
  rw [readContent, CardContent.text, readFrame_render]
  rfl

end Json

/-! ## A library -/

namespace Nostr

/-- What a library signs with, in place of a hash and of a signature. -/
def blank (n : ℕ) : String := toHex (List.replicate n 0)

/-- The text that this library signs an event into. -/
def canonical (e : CardEvent) : String :=
  CardDraft.text ⟨e.kind, e.content, e.identifier.getD "", e.expiration.getD 0, e.createdAt⟩
    e.publicKey (blank 32) (blank 64)

/-- A library that accepts an event if it is the one in its text. Its events are real JSON texts.
What a signature stands for is that the text is the one that signing would have written. -/
def ofJson : Nostr where
  verify e := if e.json = canonical e ∧ e.identifier.isSome ∧ e.expiration.isSome then .ok ()
    else .error (.msg "event signature is invalid")
  fromJson s := match Json.readEvent s with
    | some e => .ok e
    | none => .error (.msg "invalid event")
  sign key d := .ok ⟨key, d.createdAt, d.kind, some d.identifier, some d.expiration, d.content,
    d.text key (blank 32) (blank 64)⟩
  contentFromJson s := match Json.readContent s with
    | some c => .ok c
    | none => .error (.msg "invalid payload")
  contentToJson c := .ok c.text

/-- A text between two braces has no white space around it. -/
lemma trim_braces (s : String) : trim ("\x7b" ++ s ++ "\x7d") = "\x7b" ++ s ++ "\x7d" := by
  have hlist : ("\x7b" ++ s ++ "\x7d").toList = '\x7b' :: (s.toList ++ ['\x7d']) := by
    simp [String.toList_append]
  have hopen : isWhitespace '\x7b' = false := by decide
  have hclose : isWhitespace '\x7d' = false := by decide
  apply String.toList_injective
  rw [trim, String.toList_ofList, hlist, List.dropWhile_cons_of_neg (by simp [hopen])]
  simp [hclose]

/-- The text of an event stands between two braces. -/
lemma trim_text (d : CardDraft) (key : PublicKey) (id sig : String) :
    trim (d.text key id sig) = d.text key id sig := by
  obtain ⟨s, hs⟩ : ∃ s, d.text key id sig = "\x7b" ++ s ++ "\x7d" := by
    refine ⟨"\"id\":" ++ jsonString id ++ ",\"pubkey\":" ++ jsonString key.toHex ++
      ",\"created_at\":" ++ toString d.createdAt ++ ",\"kind\":" ++ toString d.kind ++
      ",\"tags\":[[\"d\"," ++ jsonString d.identifier ++ "],[\"expiration\"," ++
      jsonString (toString d.expiration) ++ "]],\"content\":" ++ jsonString d.content ++
      ",\"sig\":" ++ jsonString sig, ?_⟩
    have hopen : "\x7b\"id\":" = "\x7b" ++ "\"id\":" := by decide
    unfold CardDraft.text
    rw [hopen]
    simp only [String.append_assoc]
  rw [hs, trim_braces]

/-- What this library verifies. -/
lemma verify_ofJson {e : CardEvent} : ofJson.verify e = .ok () ↔
    e.json = canonical e ∧ e.identifier.isSome ∧ e.expiration.isSome := by
  unfold ofJson
  exact ite_eq_left_iff.trans ⟨fun h => not_not.1 fun hnot => (by cases h hnot), fun h hnot =>
    absurd h hnot⟩

/-- The text of an event with both tags. -/
lemma canonical_tagged (key : PublicKey) (d : CardDraft) (json : String) :
    canonical ⟨key, d.createdAt, d.kind, some d.identifier, some d.expiration, d.content, json⟩ =
      d.text key (blank 32) (blank 64) := by
  unfold canonical
  simp only [Option.getD_some]

/-- **The library keeps its promises.**

**Proof sketch.** An event that verifies has the canonical text of its fields, which is read back.
What is signed has the fields of the draft, and the payload is read back as a number, a name and two
numbers. -/
theorem ofJson_mints : ofJson.Mints where
  json e he := by
    obtain ⟨key, createdAt, kind, identifier, expiration, content, json⟩ := e
    obtain ⟨hjson, hidentifier, hexpiration⟩ := verify_ofJson.1 he
    obtain ⟨identifier, rfl⟩ := Option.isSome_iff_exists.1 hidentifier
    obtain ⟨expiration, rfl⟩ := Option.isSome_iff_exists.1 hexpiration
    have htext := canonical_tagged key ⟨kind, content, identifier, expiration, createdAt⟩ json
    have hread : Json.readEvent json = some ⟨key, createdAt, kind, some identifier,
        some expiration, content, json⟩ := by
      rw [show json = _ from hjson.trans htext, Json.readEvent_text]
    constructor
    · simp only [ofJson, hread]
    · show trim json = json
      rw [show json = _ from hjson.trans htext, trim_text]
  sign key d e he := by
    obtain rfl := Except.ok.inj he
    exact ⟨verify_ofJson.2 ⟨(canonical_tagged key d _).symm, rfl, rfl⟩, rfl, rfl, rfl, rfl, rfl,
      rfl⟩
  content c s hs := by
    obtain rfl := Except.ok.inj hs
    simp only [ofJson, Json.readContent_text]
  writes _ := rfl
  signs key d := ⟨_, List.replicate 32 0, List.replicate 64 0, rfl, List.length_replicate,
    List.length_replicate, rfl⟩

/-! ## What it signs -/

/-- What is signed for a payload: the payload, with its window on the tags of a card. -/
def draft (content : CardContent) : CardDraft :=
  ⟨IDENTITY_CARD_KIND, content.text, IDENTITY_CARD_DTAG, content.notAfter, content.notBefore⟩

/-- The event that this library signs for a payload. -/
def signedEvent (key : PublicKey) (content : CardContent) : CardEvent :=
  ⟨key, content.notBefore, IDENTITY_CARD_KIND, some IDENTITY_CARD_DTAG, some content.notAfter,
    content.text, (draft content).text key (blank 32) (blank 64)⟩

/-- The card of that event. -/
def signedCard (key : PublicKey) (content : CardContent) : IdentityCard :=
  ⟨key, content.name, content.notBefore, content.notAfter, (signedEvent key content).json⟩

end Nostr

end Duocb
