import Duocb.Card.CharDebug
import Duocb.Protocol

set_option relaxedAutoImplicit false
set_option autoImplicit false

/-!
# Identity cards

A card is a signed event whose payload names a device and a validity window. Parsing one proves that
it is well formed and authentic, never that it is current. Signatures, events and their JSON are a
library's, and stand as parameters with what they promise.

## Main definitions

* `Duocb.validateName`, `Duocb.splitDisplayIdentity` — the names of devices.
* `Duocb.Nostr`, `Duocb.Nostr.Lawful` — what cards need of the library, and what it promises.
* `Duocb.IdentityCard.fromEvent`, `Duocb.IdentityCard.parse` — the verifying parse.
* `Duocb.cardValidFrom` — a card minted by the owner of a key.
* `Duocb.Bech32`, `Duocb.Identity.parseNsec` — keys as texts.
* `Duocb.pairingCode` — what two people compare before they trust each other's cards.

## Main results

* `Duocb.IdentityCard.fromEvent_ok` — what holds of a card that was parsed.
* `Duocb.IdentityCard.parse_encode` — a card parses back from its text.
* `Duocb.cardValidFrom_ok` — what is minted is a card of its key, name and window.
* `Duocb.Identity.parseNsec_toNsec` — a private key reads back from its form.
* `Duocb.pairingCode_comm` — both devices show the same code.
* `Duocb.IdentityCard.offer_fits` — a card always fits in the frame that offers it.
-/

namespace Duocb

/-! ## Names -/

/-- Unambiguous mixed-case alphanumerics: digits and letters minus `0 O o 1 l I`. -/
def UNAMBIGUOUS_ALPHANUM : List Char :=
  "23456789ABCDEFGHJKLMNPQRSTUVWXYZabcdefghijkmnpqrstuvwxyz".toList

/-- How many characters a suffix has. -/
def SUFFIX_LEN : ℕ := 8

/-- How many characters a name has at most. -/
def NAME_MAX_LEN : ℕ := 24

/-- What stands between the name and the suffix of an identity. -/
def IDENTITY_SEPARATOR : Char := '_'

/-- Whether a text can be the permanent suffix of a device. Each character of the alphabet is one
byte, and no other character has such a byte. -/
def isValidSuffix (suffix : String) : Bool :=
  suffix.utf8ByteSize = SUFFIX_LEN && suffix.toList.all fun c => c ∈ UNAMBIGUOUS_ALPHANUM

/-- Whether a character may stand in a device name. -/
def isNameChar (c : Char) : Bool := c.isAlphanum || c = '-'

/-- Validate a user-chosen device name: 1 to 24 ASCII letters, digits, or dashes. The error names
the first character that is not allowed, in its debug form. -/
def validateName (name : String) : Except Error Unit :=
  if name = "" then .error (.msg "device name must not be empty")
  else if NAME_MAX_LEN < name.toList.length then
    .error (.msg s!"device name must be at most {NAME_MAX_LEN} characters")
  else match name.toList.find? fun c => !isNameChar c with
    | some bad => .error (.msg ("device name may only contain letters, digits, and '-' (found " ++
        charDebug bad ++ ")"))
    | none => .ok ()

/-- The final name of a device: the user's name and the permanent suffix. -/
def displayIdentity (name suffix : String) : String :=
  name ++ IDENTITY_SEPARATOR.toString ++ suffix

/-- A text cut at its first separator. -/
def splitOnce (c : Char) (s : String) : Option (String × String) :=
  match s.toList.dropWhile fun d => d ≠ c with
  | [] => none
  | _ :: rest => some (String.ofList (s.toList.takeWhile fun d => d ≠ c), String.ofList rest)

/-- Validate and split the final name stored in an identity card. The name and the suffix are
separated once, and each is checked on its own. -/
def splitDisplayIdentity (display : String) : Except Error (String × String) :=
  match splitOnce IDENTITY_SEPARATOR display with
  | none => .error (.msg "device identity must contain a permanent suffix")
  | some (name, suffix) =>
    if IDENTITY_SEPARATOR ∈ suffix.toList then
      .error (.msg "device identity contains more than one separator")
    else match validateName name with
      | .error e => .error e
      | .ok () =>
        if isValidSuffix suffix then .ok (name, suffix)
        else .error (.msg "device identity has an invalid permanent suffix")

/-- A name that is valid has no separator in it. -/
lemma not_mem_of_validateName {name : String} (h : validateName name = .ok ()) :
    IDENTITY_SEPARATOR ∉ name.toList := by
  unfold validateName at h
  split_ifs at h
  split at h
  · cases h
  · rename_i hnone
    intro hmem
    have := List.find?_eq_none.1 hnone _ hmem
    revert this
    decide

/-- A suffix that is valid has no separator in it. -/
lemma not_mem_of_isValidSuffix {suffix : String} (h : isValidSuffix suffix = true) :
    IDENTITY_SEPARATOR ∉ suffix.toList := by
  intro hmem
  have hall := List.all_eq_true.1 (Bool.and_eq_true_iff.1 h).2 _ hmem
  revert hall
  decide

/-- A text is cut at a separator that does not stand before it. -/
lemma splitOnce_append {c : Char} {a b : String} (ha : c ∉ a.toList) :
    splitOnce c (a ++ c.toString ++ b) = some (a, b) := by
  have hlist : (a ++ c.toString ++ b).toList = a.toList ++ c :: b.toList := by
    simp [Char.toString, String.toList_append]
  have hne : ∀ d ∈ a.toList, decide (d ≠ c) = true := by
    intro d hd
    simp only [ne_eq, decide_not, Bool.not_eq_eq_eq_not, Bool.not_true, decide_eq_false_iff_not]
    rintro rfl
    exact ha hd
  unfold splitOnce
  rw [hlist, List.dropWhile_append_of_pos hne, List.takeWhile_append_of_pos hne]
  simp

/-- **The two parts of a final name can be told apart.** -/
theorem split_display {name suffix : String} (hname : validateName name = .ok ())
    (hsuffix : isValidSuffix suffix = true) :
    splitDisplayIdentity (displayIdentity name suffix) = .ok (name, suffix) := by
  have hsplit : splitOnce IDENTITY_SEPARATOR (displayIdentity name suffix) = some (name, suffix) :=
    splitOnce_append (not_mem_of_validateName hname)
  simp only [splitDisplayIdentity, hsplit]
  rw [if_neg (not_mem_of_isValidSuffix hsuffix), hname]
  simp [hsuffix]

/-! ## Events -/

/-- How many bytes the text of a card has at most. -/
def MAX_CARD_SIZE : ℕ := 2 * 1024

/-- The kind of the event that carries a card, -/
def IDENTITY_CARD_KIND : ℕ := 30382

/-- and the identifier of that event. -/
def IDENTITY_CARD_DTAG : String := "duocb:identity-card:v4"

/-- The version of the content of a card. -/
def IDENTITY_CARD_VERSION : ℕ := 4

/-- How long a freshly minted card stays usable, in seconds. -/
def CARD_TTL_SECS : ℕ := 30 * 24 * 60 * 60

/-- The payload of a card. It repeats the validity window that the event carries in its tags and
time, so that a parse can compare them. -/
structure CardContent where
  version : ℕ
  name : String
  notBefore : ℕ
  notAfter : ℕ
  deriving DecidableEq

/-- An event, as far as a card reads it, with its own JSON text. Only the two tags that a card reads
are kept; a missing one is `none`. -/
structure CardEvent where
  publicKey : PublicKey
  createdAt : ℕ
  kind : ℕ
  identifier : Option String
  expiration : Option ℕ
  content : String
  json : String
  deriving DecidableEq

/-- What is signed into an event. The event's id and its signature are made from these by the
library. -/
structure CardDraft where
  kind : ℕ
  content : String
  identifier : String
  expiration : ℕ
  createdAt : ℕ

/-- What cards need of the event library and of the JSON of a payload. The source takes them from
external packages: the signing and the checking of an event, its JSON form, and the JSON of the
payload. -/
structure Nostr where
  verify : CardEvent → Except Error Unit
  fromJson : String → Except Error CardEvent
  sign : PublicKey → CardDraft → Except Error CardEvent
  contentFromJson : String → Except Error CardContent
  contentToJson : CardContent → Except Error String

/-- A character that is white space to `trim`. -/
def isWhitespace (c : Char) : Bool :=
  let n := c.toNat
  (9 ≤ n && n ≤ 13) || n = 0x20 || n = 0x85 || n = 0xA0 ||
    n = 0x1680 || (0x2000 ≤ n && n ≤ 0x200A) ||
    n = 0x2028 || n = 0x2029 || n = 0x202F || n = 0x205F || n = 0x3000

/-- A text without the white space around it. -/
def trim (s : String) : String :=
  String.ofList (((s.toList.dropWhile isWhitespace).reverse.dropWhile isWhitespace).reverse)

/-- A text without white space is left alone by `trim`. -/
lemma trim_eq_self {s : String} (h : ∀ c ∈ s.toList, isWhitespace c = false) : trim s = s := by
  have hdrop : ∀ cs : List Char, (∀ c ∈ cs, isWhitespace c = false) →
      cs.dropWhile isWhitespace = cs := by
    intro cs hcs
    cases cs with
    | nil => rfl
    | cons c cs => exact List.dropWhile_cons_of_neg (by simp [hcs c List.mem_cons_self])
  rw [trim, hdrop _ h, hdrop _ fun c hc => h c (List.mem_reverse.1 hc), List.reverse_reverse,
    String.ofList_toList]

/-- What the event library promises: a verified event reads back from its JSON text, which starts
and ends with a brace; an event that was signed verifies and holds what was signed; and a payload
reads back from its JSON. -/
structure Nostr.Lawful (N : Nostr) : Prop where
  json : ∀ e, N.verify e = .ok () → N.fromJson e.json = .ok e ∧ trim e.json = e.json
  sign : ∀ key d e, N.sign key d = .ok e → N.verify e = .ok () ∧ e.publicKey = key ∧
    e.kind = d.kind ∧ e.content = d.content ∧ e.identifier = some d.identifier ∧
    e.expiration = some d.expiration ∧ e.createdAt = d.createdAt
  content : ∀ c s, N.contentToJson c = .ok s → N.contentFromJson s = .ok c

/-! ## Cards -/

/-- Fail with a message if something is wrong. -/
def bailIf (wrong : Prop) [Decidable wrong] (message : String) : Except Error Unit :=
  if wrong then .error (.msg message) else .ok ()

namespace IdentityCard

variable (N : Nostr)

/-- The card of an event that verifies and holds a payload that agrees with it. The checks are those
of the source, in its order: the signature, the kind, the identifier, the version, the name, the
window, the times of the event and the size of its text. -/
def fromEvent (event : CardEvent) : Except Error IdentityCard := do
  withContext (N.verify event) "identity card signature is invalid"
  bailIf (event.kind ≠ IDENTITY_CARD_KIND) "identity card has the wrong event kind"
  bailIf (event.identifier ≠ some IDENTITY_CARD_DTAG) "identity card has the wrong identifier"
  let content ← withContext (N.contentFromJson event.content) "identity card payload is invalid"
  bailIf (content.version ≠ IDENTITY_CARD_VERSION)
    s!"identity card version {content.version} is unsupported"
  let _ ← splitDisplayIdentity content.name
  bailIf (content.notAfter ≤ content.notBefore)
    "identity card validity window ends no later than it starts"
  bailIf (CARD_TTL_SECS < content.notAfter - content.notBefore)
    s!"identity card claims a lifetime longer than {CARD_TTL_SECS} seconds"
  bailIf (event.createdAt ≠ content.notBefore)
    "identity card event time does not match its validity start"
  bailIf (event.expiration ≠ some content.notAfter)
    "identity card expiration tag does not match its validity end"
  bailIf (MAX_CARD_SIZE < event.json.utf8ByteSize) s!"identity card exceeds {MAX_CARD_SIZE} bytes"
  return ⟨event.publicKey, content.name, content.notBefore, content.notAfter, event.json⟩

/-- The verifying parse of a card that was handed over. -/
def parse (input : String) : Except Error IdentityCard := do
  bailIf (MAX_CARD_SIZE < (trim input).utf8ByteSize) s!"identity card exceeds {MAX_CARD_SIZE} bytes"
  let event ← withContext (N.fromJson (trim input)) "identity card is not valid JSON"
  fromEvent N event

/-- A card that some event verifies to. No other card can be had. -/
def Verified (card : IdentityCard) : Prop := ∃ event, fromEvent N event = .ok card

end IdentityCard

/-- Mint a card whose validity window opens at a given time. The name is checked before anything is
signed, and the minted event goes through the same parse as a received one. -/
def cardValidFrom (N : Nostr) (identity : Identity) (name suffix : String) (notBefore : ℕ) :
    Except Error IdentityCard := do
  validateName name
  let name := displayIdentity name suffix
  let _ ← splitDisplayIdentity name
  let notAfter := notBefore + CARD_TTL_SECS
  let content ← withContext (N.contentToJson ⟨IDENTITY_CARD_VERSION, name, notBefore, notAfter⟩)
    "serializing identity card"
  let event ← withContext
    (N.sign identity.publicKey ⟨IDENTITY_CARD_KIND, content, IDENTITY_CARD_DTAG, notAfter,
      notBefore⟩)
    "signing identity card"
  IdentityCard.fromEvent N event

/-! ## What holds of cards -/

variable {N : Nostr}

/-- A check passes exactly if nothing is wrong. -/
@[simp] lemma bailIf_eq_ok {wrong : Prop} [Decidable wrong] {message : String} {u : Unit} :
    bailIf wrong message = .ok u ↔ ¬ wrong := by
  unfold bailIf
  split <;> simp_all

/-- What is there when only the success of a computation is asked for. -/
lemma toOption_eq_some {ε α : Type} {r : Except ε α} {a : α} :
    r.toOption = some a ↔ r = .ok a := by
  cases r <;> simp [Except.toOption]

namespace IdentityCard

/-- What holds of a card that was parsed, and of its event. Every check of the parse is a field
here, so that what is proved of a card needs no look at the parse. -/
structure Checked (N : Nostr) (event : CardEvent) (card : IdentityCard) : Prop where
  verified : N.verify event = .ok ()
  publicKey : card.publicKey = event.publicKey
  encode : card.encode = event.json
  payload : N.contentFromJson event.content =
    .ok ⟨IDENTITY_CARD_VERSION, card.name, card.notBefore, card.notAfter⟩
  name : ∃ parts, splitDisplayIdentity card.name = .ok parts
  window : card.notBefore < card.notAfter
  lifetime : card.notAfter - card.notBefore ≤ CARD_TTL_SECS
  created : event.createdAt = card.notBefore
  expires : event.expiration = some card.notAfter
  size : card.encode.utf8ByteSize ≤ MAX_CARD_SIZE

/-- **What holds of a card that was parsed.**

**Proof sketch.** The parse is a sequence of checks, and each of them is one of the facts. -/
theorem fromEvent_ok {event : CardEvent} {card : IdentityCard} (h : fromEvent N event = .ok card) :
    card.Checked N event := by
  simp only [fromEvent, bind_eq_ok, withContext_eq_ok, bailIf_eq_ok, pure, Except.pure,
    Except.ok.injEq] at h
  obtain ⟨_, hverify, -, -, -, -, content, hcontent, -, hversion, parts, hname, -, hwindow, -,
    hlifetime, -, hcreated, -, hexpires, -, hsize, rfl⟩ := h
  obtain ⟨version, name, notBefore, notAfter⟩ := content
  obtain rfl : version = IDENTITY_CARD_VERSION := not_not.1 hversion
  exact ⟨hverify, rfl, rfl, hcontent, ⟨parts, hname⟩, Nat.lt_of_not_le hwindow,
    Nat.le_of_not_lt hlifetime, not_not.1 hcreated, not_not.1 hexpires, Nat.le_of_not_lt hsize⟩

/-- **A card parses back from its text.**

**Proof sketch.** The text of a card is the JSON of its event, which is within the limit and is read
back by the library. -/
theorem parse_encode (hN : N.Lawful) {card : IdentityCard} (h : card.Verified N) :
    parse N card.encode = .ok card := by
  obtain ⟨event, hevent⟩ := h
  have hc := fromEvent_ok hevent
  obtain ⟨hjson, htrim⟩ := hN.json event hc.verified
  simp only [parse, bind_eq_ok, withContext_eq_ok, bailIf_eq_ok]
  refine ⟨(), ?_, event, ?_, hevent⟩
  · rw [hc.encode, htrim, ← hc.encode]
    exact Nat.not_lt.2 hc.size
  · rw [hc.encode, htrim]
    exact hjson

/-- What parses is a card. -/
lemma verified_of_parse {input : String} {card : IdentityCard} (h : parse N input = .ok card) :
    card.Verified N := by
  simp only [parse, bind_eq_ok, withContext_eq_ok, bailIf_eq_ok] at h
  obtain ⟨-, -, event, -, hevent⟩ := h
  exact ⟨event, hevent⟩

end IdentityCard

/-- **What is minted is a card of its key, name and window.**

**Proof sketch.** The payload that is written is the one that the parse reads again from the signed
event. -/
theorem cardValidFrom_ok (hN : N.Lawful) {identity : Identity} {name suffix : String}
    {notBefore : ℕ} {card : IdentityCard}
    (h : cardValidFrom N identity name suffix notBefore = .ok card) :
    card.Verified N ∧ card.publicKey = identity.publicKey ∧
      card.name = displayIdentity name suffix ∧ card.notBefore = notBefore ∧
      card.notAfter = notBefore + CARD_TTL_SECS ∧ validateName name = .ok () ∧
      ∃ parts, splitDisplayIdentity (displayIdentity name suffix) = .ok parts := by
  simp only [cardValidFrom, bind_eq_ok, withContext_eq_ok] at h
  obtain ⟨_, hname, parts, hparts, content, hcontent, event, hsign, hevent⟩ := h
  obtain ⟨-, hkey, -, hcontent', -⟩ := hN.sign _ _ _ hsign
  have hc := IdentityCard.fromEvent_ok hevent
  have hpayload := hc.payload
  rw [hcontent', hN.content _ _ hcontent] at hpayload
  obtain ⟨hn, hb, ha⟩ := by simpa using hpayload
  exact ⟨⟨event, hevent⟩, hc.publicKey.trans hkey, hn.symm, hb.symm, ha.symm, hname, parts, hparts⟩

/-! ## Keys as texts -/

/-- The bech32 forms of keys, a library's. -/
structure Bech32 where
  keysParse : String → Except Error Identity
  toNsec : Identity → String
  npub : PublicKey → String

/-- What the library promises: a private key reads back from its form, which starts with `nsec1` and
has no white space; a public key is determined by its form, which starts with `npub1`. -/
structure Bech32.Lawful (B : Bech32) : Prop where
  nsec : ∀ i, B.keysParse (B.toNsec i) = .ok i
  nsec_form : ∀ i, "nsec1".toList <+: (B.toNsec i).toList ∧ ∀ c ∈ (B.toNsec i).toList,
    isWhitespace c = false
  npub_inj : ∀ k l, B.npub k = B.npub l → k = l
  npub_form : ∀ k, "npub1".toList <+: (B.npub k).toList

/-- Read an identity from its private key. -/
def Identity.parseNsec (B : Bech32) (input : String) : Except Error Identity :=
  let compact := input.toList.filter fun c => !isWhitespace c
  if "nsec1".toList.isPrefixOf compact then
    withContext (B.keysParse (String.ofList compact)) "invalid identity private key"
  else .error (.msg "identity private key must be an nsec")

/-- A private key reads back from its form. -/
lemma Identity.parseNsec_toNsec {B : Bech32} (hB : B.Lawful) (i : Identity) :
    Identity.parseNsec B (B.toNsec i) = .ok i := by
  obtain ⟨hstart, hblank⟩ := hB.nsec_form i
  have hcompact : (B.toNsec i).toList.filter (fun c => !isWhitespace c) = (B.toNsec i).toList :=
    List.filter_eq_self.2 fun c hc => by simp [hblank c hc]
  simp only [Identity.parseNsec, hcompact]
  rw [if_pos (List.isPrefixOf_iff_prefix.2 hstart), String.ofList_toList, hB.nsec]
  rfl

/-! ## Pairing codes -/

/-- Domain separator of fingerprints. -/
def FINGERPRINT_DOMAIN : Bytes := utf8 "duocb:key-fingerprint:v1" ++ [0]

/-- Bytes of a hash that are kept in a fingerprint. -/
def FINGERPRINT_BYTES : ℕ := 10

/-- Bytes in groups of two, in upper-case hexadecimal. -/
def upperPairs : Bytes → List String
  | a :: b :: rest => String.ofList ((hexByte a ++ hexByte b).map Char.toUpper) :: upperPairs rest
  | _ => []

/-- The fingerprint of a key that people compare. -/
def keyFingerprint (sha256 : Bytes → Bytes) (key : PublicKey) : String :=
  " ".intercalate (upperPairs ((sha256 (FINGERPRINT_DOMAIN ++ key.bytes)).take FINGERPRINT_BYTES))

/-- The code both devices show during card setup: the fingerprints of the two keys, the lower key
first. -/
def pairingCode (sha256 : Bytes → Bytes) (a b : PublicKey) : Except Error String :=
  if a = b then .error (.msg "a pairing code needs two distinct keys")
  else if a.bytes ≤ b.bytes then .ok (keyFingerprint sha256 a ++ " " ++ keyFingerprint sha256 b)
  else .ok (keyFingerprint sha256 b ++ " " ++ keyFingerprint sha256 a)

/-- Two different keys have a code. -/
lemma pairingCode_ok (sha256 : Bytes → Bytes) {a b : PublicKey} (h : a ≠ b) :
    ∃ code, pairingCode sha256 a b = .ok code := by
  unfold pairingCode
  rw [if_neg h]
  split_ifs
  · exact ⟨_, rfl⟩
  · exact ⟨_, rfl⟩

/-- Two different keys have a code, and it does not depend on whose screen shows it.

**Proof sketch.** The two keys are sorted by their bytes before they are hashed, so their order does
not matter. -/
lemma pairingCode_comm {sha256 : Bytes → Bytes} {a b : PublicKey} (h : a ≠ b) :
    ∃ code, pairingCode sha256 a b = .ok code ∧ pairingCode sha256 b a = .ok code := by
  have hbytes : a.bytes ≠ b.bytes := fun hb => h (PublicKey.ext hb)
  unfold pairingCode
  rw [if_neg h, if_neg (Ne.symm h)]
  rcases List.le_total a.bytes b.bytes with hle | hle
  · rw [if_pos hle, if_neg fun h' => hbytes (List.le_antisymm hle h')]
    exact ⟨_, rfl, rfl⟩
  · rw [if_pos hle, if_neg fun h' => hbytes (List.le_antisymm h' hle)]
    exact ⟨_, rfl, rfl⟩

/-! ## The size of an offer -/

/-- A digit is one byte. -/
lemma utf8Size_digit {n : ℕ} (h : n < 16) : (Nat.digitChar n).utf8Size = 1 :=
  (show ∀ i : Fin 16, (Nat.digitChar i).utf8Size = 1 by decide) ⟨n, h⟩

/-- An escape takes at most six bytes for each of its character.

**Proof sketch.** By the branches of the escape. The longest one writes a control character by its
number, with six characters of one byte each. -/
lemma escapeChar_le (c : Char) : ((escapeChar c).map Char.utf8Size).sum ≤ 6 * c.utf8Size := by
  have hpos := Char.utf8Size_pos c
  have quote : '"'.utf8Size = 1 := by decide
  have back : '\\'.utf8Size = 1 := by decide
  have letters : ['n', 'r', 't', 'b', 'f', 'u', '0'].all (fun d => d.utf8Size = 1) = true := by
    decide +kernel
  have letter : ∀ d ∈ ['n', 'r', 't', 'b', 'f', 'u', '0'], d.utf8Size = 1 := fun d hd => by
    simpa using List.all_eq_true.1 letters d hd
  unfold escapeChar
  split_ifs
  all_goals simp [quote, back, letter, hexByte]
  all_goals try omega
  -- a control character has a code below 32
  rename_i hsmall
  rw [utf8Size_digit (by omega), utf8Size_digit (by omega)]
  omega

/-- A text takes at most six times its size as a JSON string.

**Proof sketch.** By induction on the characters, with the bound for each escape; the two quotes are
the rest. -/
lemma jsonString_le (s : String) : (jsonString s).utf8ByteSize ≤ 6 * s.utf8ByteSize + 2 := by
  have h : ∀ cs : List Char, ((cs.flatMap escapeChar).map Char.utf8Size).sum ≤
      6 * (cs.map Char.utf8Size).sum := by
    intro cs
    induction cs with
    | nil => simp
    | cons c cs ih =>
      have hc := escapeChar_le c
      simp only [List.flatMap_cons, List.map_append, List.sum_append, List.map_cons, List.sum_cons]
      omega
  have hs := h s.toList
  rw [← utf8ByteSize_ofList, ← utf8ByteSize_ofList, String.ofList_toList] at hs
  have hquote : "\"".utf8ByteSize = 1 := by decide
  simp only [jsonString, String.utf8ByteSize_append, hquote]
  omega

/-- **A card always fits in the frame that offers it.**

**Proof sketch.** An escape doubles the text of a card at most, since it has no control characters,
and the frame adds a few fields of known length. -/
theorem IdentityCard.offer_fits {card : IdentityCard} (h : card.Verified N) :
    (CardOffer.new card.encode).toFrame.size ≤ MAX_CONTROL_MESSAGE_SIZE := by
  obtain ⟨event, hevent⟩ := h
  have hsize := (fromEvent_ok hevent).size
  have htext := jsonString_le card.encode
  have hversion : (jsonString "version").utf8ByteSize = 9 := by decide
  have hcard : (jsonString "card").utf8ByteSize = 6 := by decide
  have hnumber : (toString DUOCB_PROTO_VERSION).utf8ByteSize = 1 := by decide
  unfold MAX_CARD_SIZE at hsize
  unfold MAX_CONTROL_MESSAGE_SIZE
  simp only [Frame.size, Frame.render, CardOffer.new, CardOffer.toFrame, List.map, renderField,
    Value.render, commaSep, String.utf8ByteSize_append, hversion, hcard, hnumber]
  have hmarks : ("\x7b" : String).utf8ByteSize = 1 ∧ ("\x7d" : String).utf8ByteSize = 1 ∧
      (":" : String).utf8ByteSize = 1 ∧ ("," : String).utf8ByteSize = 1 := by decide
  omega

end Duocb
