import Duocb.Card.Event

set_option relaxedAutoImplicit false
set_option autoImplicit false

/-!
# Minting a card, and handing it over

A card that is minted for a valid name and suffix passes every check of the parse, its two parts are
read off it again, and it reaches the other device in one frame. The library signs an event into the
JSON text that the event format prescribes, so the size of a card follows from its name.

## Main definitions

* `Duocb.IdentityCard.shortName`, `Duocb.IdentityCard.suffix` — the two parts of a card's name.

## Main results

* `Duocb.splitDisplayIdentity_eq_ok` — exactly which names are split, and how.
* `Duocb.Nostr.fromEvent_signedEvent` — the card that is signed for a sound payload passes the
  parse.
* `Duocb.cardValidFrom_eq_ok` — a card is minted for every valid name and suffix.
* `Duocb.cardValidFrom_refused` — and for no others.
* `Duocb.card_round_trip` — every card is read back from its text, and from the frame that offers
  it.
-/

namespace Duocb

/-! ## The two parts of a name -/

/-- A text that is cut at a separator is put together again.

**Proof sketch.** The text is what stands before the separator, and what was dropped from there on.
Its first character is the separator, as the search stopped at it. -/
lemma splitOnce_eq_some {c : Char} {s a b : String} (h : splitOnce c s = some (a, b)) :
    s = a ++ c.toString ++ b := by
  have hjoin := List.takeWhile_append_dropWhile (p := fun d => decide (d ≠ c)) (l := s.toList)
  unfold splitOnce at h
  split at h
  · cases h
  · rename_i d rest hdrop
    cases h
    -- the character that was dropped is the separator
    have hd : d = c := by
      have hhead := List.head?_dropWhile_not (fun d => decide (d ≠ c)) s.toList
      rw [hdrop] at hhead
      simpa using hhead
    apply String.toList_injective
    rw [hdrop, hd] at hjoin
    conv_lhs => rw [← hjoin]
    simp [Char.toString, String.toList_append]

/-- **Exactly which names are split, and how**: those that are put together from a valid name and a
valid suffix.

**Proof sketch.** A name that is split has a separator, and its two parts passed their checks.
Conversely, a valid name has no separator in it, so the first one is the one between the two parts.
-/
theorem splitDisplayIdentity_eq_ok {display name suffix : String} :
    splitDisplayIdentity display = .ok (name, suffix) ↔ validateName name = .ok () ∧
      isValidSuffix suffix = true ∧ display = displayIdentity name suffix := by
  constructor
  · intro h
    unfold splitDisplayIdentity at h
    split at h
    · cases h
    · rename_i name' suffix' hsplit
      by_cases hsep : IDENTITY_SEPARATOR ∈ suffix'.toList
      · rw [if_pos hsep] at h
        cases h
      · rw [if_neg hsep] at h
        cases hname : validateName name' with
        | error e =>
          rw [hname] at h
          cases h
        | ok _ =>
          simp only [hname] at h
          split_ifs at h with hsuffix
          cases h
          exact ⟨hname, hsuffix, splitOnce_eq_some hsplit⟩
  · rintro ⟨hname, hsuffix, rfl⟩
    exact split_display hname hsuffix

namespace IdentityCard

/-- The part of the name that the user chose. There is none if the name has no parts: the source
panics then. -/
def shortName (card : IdentityCard) : Option String :=
  (splitDisplayIdentity card.name).toOption.map Prod.fst

/-- The permanent part of the name. -/
def suffix (card : IdentityCard) : Option String :=
  (splitDisplayIdentity card.name).toOption.map Prod.snd

/-- The parts of a name are read off it. -/
lemma parts_of_name {card : IdentityCard} {name suffix : String}
    (h : splitDisplayIdentity card.name = .ok (name, suffix)) :
    card.shortName = some name ∧ card.suffix = some suffix := by
  unfold shortName IdentityCard.suffix
  rw [h]
  exact ⟨rfl, rfl⟩

end IdentityCard

/-! ## Sizes -/

/-- A character that stands for itself in a JSON string, in one byte. -/
def IsPlain (c : Char) : Prop := escapeChar c = [c] ∧ c.utf8Size = 1

/-- Whether a character is plain is decided by the list of plain ones. -/
instance (c : Char) : Decidable (IsPlain c) := inferInstanceAs (Decidable (_ ∧ _))

/-- A text of plain characters takes as many bytes as it has characters, -/
lemma utf8ByteSize_plain {s : String} (h : ∀ c ∈ s.toList, IsPlain c) :
    s.utf8ByteSize = s.toList.length := by
  have hsum := utf8ByteSize_ofList s.toList
  rw [String.ofList_toList] at hsum
  rw [hsum, List.map_congr_left fun c hc => (h c hc).2]
  simp

/-- and two more as a JSON string. -/
lemma jsonString_plain {s : String} (h : ∀ c ∈ s.toList, IsPlain c) :
    (jsonString s).utf8ByteSize = s.toList.length + 2 := by
  have hsame : s.toList.flatMap escapeChar = s.toList := by
    have hsingle : s.toList.flatMap escapeChar = s.toList.flatMap fun c => [c] :=
      List.flatMap_congr fun c hc => (h c hc).1
    rw [hsingle, List.flatMap_singleton']
  have hquote : "\"".utf8ByteSize = 1 := by decide
  rw [jsonString, hsame, String.ofList_toList, String.utf8ByteSize_append,
    String.utf8ByteSize_append, utf8ByteSize_plain h, hquote]
  omega

/-- The hexadecimal form of bytes takes two bytes for each of them, and two more.

**Proof sketch.** The digits are plain, so none of them is escaped, and there are two for each byte.
-/
lemma jsonString_toHex (bs : Bytes) : (jsonString (toHex bs)).utf8ByteSize = 2 * bs.length + 2 := by
  have hplain := forall_mem_toHex (P := IsPlain) (by decide) bs
  have hlen : (toHex bs).toList.length = 2 * bs.length := by
    rw [toHex, String.toList_ofList, List.length_flatMap]
    simp [hexByte, Nat.mul_comm]
  rw [jsonString_plain hplain, hlen]

/-- The digits of a number are plain. -/
lemma plain_toString (n : ℕ) : ∀ c ∈ (toString n).toList, IsPlain c := by
  intro c hc
  rw [Json.toList_toString] at hc
  have hdigit : c.isDigit = true := Nat.isDigit_of_mem_toDigits (by omega) (by omega) hc
  have hlist : ∀ n : Fin 10, IsPlain (Char.ofNat (48 + n)) := by decide
  simp only [Char.isDigit, Bool.and_eq_true, decide_eq_true_eq, ge_iff_le,
    UInt32.le_iff_toNat_le] at hdigit
  have hlow : 48 ≤ c.toNat := hdigit.1
  have hhigh : c.toNat ≤ 57 := hdigit.2
  have hc' : c = Char.ofNat (48 + (c.toNat - 48)) := by
    rw [show 48 + (c.toNat - 48) = c.toNat by omega, Char.ofNat_toNat]
  rw [hc']
  exact hlist ⟨c.toNat - 48, by omega⟩

/-- A number of 64 bits has at most twenty digits. -/
lemma length_toString {n : ℕ} (h : n < 2 ^ 64) : (toString n).toList.length ≤ 20 := by
  rw [Json.toList_toString, Nat.length_toDigits_le_iff (by omega) (by omega)]
  omega

/-- The characters of a name are ASCII. -/
lemma toNat_of_isNameChar {c : Char} (h : isNameChar c = true) : c.toNat < 128 := by
  have hbound : ∀ u v : UInt32, v.toNat < 128 → u ≤ v → u.toNat < 128 := fun u v hv hle =>
    Nat.lt_of_le_of_lt (UInt32.le_iff_toNat_le.1 hle) hv
  have hcases : (c.isUpper || c.isLower || c.isDigit || decide (c = '-')) = true := h
  simp only [Bool.or_eq_true, decide_eq_true_eq] at hcases
  rcases hcases with ((hupper | hlower) | hdigit) | rfl
  · exact hbound _ 'Z'.val (by decide) (of_decide_eq_true hupper).2
  · exact hbound _ 'z'.val (by decide) (of_decide_eq_true (Bool.and_eq_true_iff.1 hlower).2)
  · exact Nat.lt_of_le_of_lt (Char.isDigit_iff_toNat.1 hdigit).2 (by decide)
  · decide

/-- The parts of a valid name are plain, and short.

**Proof sketch.** A character that may stand in a name is one of the first 128, and among these the
plain ones are found by computation. -/
lemma plain_of_validateName {name : String} (h : validateName name = .ok ()) :
    (∀ c ∈ name.toList, IsPlain c) ∧ name.toList.length ≤ NAME_MAX_LEN := by
  have hascii : ∀ n : Fin 128, isNameChar (Char.ofNat n) = true → IsPlain (Char.ofNat n) := by
    decide +kernel
  unfold validateName at h
  split_ifs at h with hempty hlong
  split at h
  · cases h
  · rename_i hnone
    refine ⟨fun c hc => ?_, Nat.le_of_not_lt hlong⟩
    have hname : isNameChar c = true := by simpa using List.find?_eq_none.1 hnone c hc
    have hplain := hascii ⟨c.toNat, toNat_of_isNameChar hname⟩
    rw [Char.ofNat_toNat] at hplain
    exact hplain hname

/-- A valid suffix is plain, and as long as a suffix is. -/
lemma plain_of_isValidSuffix {suffix : String} (h : isValidSuffix suffix = true) :
    (∀ c ∈ suffix.toList, IsPlain c) ∧ suffix.toList.length = SUFFIX_LEN := by
  have halphabet : UNAMBIGUOUS_ALPHANUM.all (fun c => decide (IsPlain c)) = true := by
    decide +kernel
  rw [isValidSuffix, Bool.and_eq_true, decide_eq_true_eq] at h
  have hplain : ∀ c ∈ suffix.toList, IsPlain c := fun c hc =>
    of_decide_eq_true (List.all_eq_true.1 halphabet c
      (of_decide_eq_true (List.all_eq_true.1 h.2 c hc)))
  exact ⟨hplain, by rw [← utf8ByteSize_plain hplain, h.1]⟩

/-- A name that is put together from valid parts is plain, and short.

**Proof sketch.** The parts are plain and short by the two lemmas before, and the separator is one
more character. -/
lemma plain_displayIdentity {name suffix : String} (hname : validateName name = .ok ())
    (hsuffix : isValidSuffix suffix = true) :
    (∀ c ∈ (displayIdentity name suffix).toList, IsPlain c) ∧
      (displayIdentity name suffix).toList.length ≤ 33 := by
  obtain ⟨hplain, hlen⟩ := plain_of_validateName hname
  obtain ⟨hplain', hlen'⟩ := plain_of_isValidSuffix hsuffix
  have hlist : (displayIdentity name suffix).toList = name.toList ++ '_' :: suffix.toList := by
    simp [displayIdentity, IDENTITY_SEPARATOR, Char.toString, String.toList_append]
  unfold NAME_MAX_LEN at hlen
  unfold SUFFIX_LEN at hlen'
  rw [hlist]
  refine ⟨fun c hc => ?_, by simp only [List.length_append, List.length_cons]; omega⟩
  rcases List.mem_append.1 hc with hc | hc
  · exact hplain c hc
  · rcases List.mem_cons.1 hc with rfl | hc
    · decide
    · exact hplain' c hc

/-- The payload of a card with a valid name is short.

**Proof sketch.** The sizes of the parts are added up: the marks and the names of the fields are
fixed, the name is short, and a number of 64 bits has at most twenty digits. -/
lemma text_content_le {name suffix : String} {notBefore notAfter : ℕ}
    (hname : validateName name = .ok ()) (hsuffix : isValidSuffix suffix = true)
    (hstart : notBefore < 2 ^ 64) (hend : notAfter < 2 ^ 64) :
    (CardContent.text ⟨IDENTITY_CARD_VERSION, displayIdentity name suffix, notBefore,
      notAfter⟩).utf8ByteSize ≤ 130 := by
  obtain ⟨hplain, hlen⟩ := plain_displayIdentity hname hsuffix
  have hstart' := length_toString hstart
  have hend' := length_toString hend
  rw [← utf8ByteSize_plain (plain_toString _)] at hstart' hend'
  have hnames : (jsonString "version").utf8ByteSize = 9 ∧ (jsonString "name").utf8ByteSize = 6 ∧
      (jsonString "not_before").utf8ByteSize = 12 ∧ (jsonString "not_after").utf8ByteSize = 11 := by
    decide
  have hversion : (toString IDENTITY_CARD_VERSION).utf8ByteSize = 1 := by decide
  have hmarks : ("\x7b" : String).utf8ByteSize = 1 ∧ ("\x7d" : String).utf8ByteSize = 1 ∧
      (":" : String).utf8ByteSize = 1 ∧ ("," : String).utf8ByteSize = 1 := by decide
  simp only [CardContent.text, CardContent.toFrame, Frame.render, List.map, renderField,
    Value.render, commaSep, String.utf8ByteSize_append, hnames, hversion, hmarks,
    jsonString_plain hplain]
  omega

/-- The sizes of what stands between the fields of an event. -/
lemma marks_size : "\x7b\"id\":".utf8ByteSize = 6 ∧ ",\"pubkey\":".utf8ByteSize = 10 ∧
    ",\"created_at\":".utf8ByteSize = 14 ∧ ",\"kind\":".utf8ByteSize = 8 ∧
    ",\"tags\":[[\"d\",".utf8ByteSize = 14 ∧ "],[\"expiration\",".utf8ByteSize = 16 ∧
    "]],\"content\":".utf8ByteSize = 13 ∧ ",\"sig\":".utf8ByteSize = 7 ∧
    ("\x7d" : String).utf8ByteSize = 1 := by decide +kernel

/-- The size of an event, of its payload and its two times. -/
lemma text_size (d : CardDraft) (key : PublicKey) {id sig : Bytes} (hid : id.length = 32)
    (hsig : sig.length = 64) :
    (d.text key (toHex id) (toHex sig)).utf8ByteSize = 353 + (toString d.createdAt).toList.length +
      (toString d.kind).toList.length + (jsonString d.identifier).utf8ByteSize +
      (toString d.expiration).toList.length + (jsonString d.content).utf8ByteSize := by
  have hkey : (jsonString key.toHex).utf8ByteSize = 66 := by
    rw [PublicKey.toHex, jsonString_toHex, key.length_eq]
  obtain ⟨h₁, h₂, h₃, h₄, h₅, h₆, h₇, h₈, h₉⟩ := marks_size
  unfold CardDraft.text
  simp only [String.utf8ByteSize_append, jsonString_toHex, hkey, hid, hsig, h₁, h₂, h₃, h₄, h₅, h₆,
    h₇, h₈, h₉, jsonString_plain (plain_toString _), utf8ByteSize_plain (plain_toString _)]
  omega

/-- **A signed card with a short payload is within the limit of cards.**

**Proof sketch.** The sizes of the parts are added up. The payload is escaped, which makes it six
times as long at most. -/
lemma text_draft_le {content : String} {notBefore notAfter : ℕ} (key : PublicKey) {id sig : Bytes}
    (hcontent : content.utf8ByteSize ≤ 130) (hstart : notBefore < 2 ^ 64)
    (hend : notAfter < 2 ^ 64) (hid : id.length = 32) (hsig : sig.length = 64) :
    (CardDraft.text ⟨IDENTITY_CARD_KIND, content, IDENTITY_CARD_DTAG, notAfter, notBefore⟩ key
      (toHex id) (toHex sig)).utf8ByteSize ≤ MAX_CARD_SIZE := by
  have hstart' := length_toString hstart
  have hend' := length_toString hend
  have hpayload := jsonString_le content
  have hkind : (toString IDENTITY_CARD_KIND).toList.length = 5 := by decide +kernel
  have hidentifier : (jsonString IDENTITY_CARD_DTAG).utf8ByteSize = 24 := by decide +kernel
  rw [text_size _ _ hid hsig]
  simp only [hkind, hidentifier]
  unfold MAX_CARD_SIZE
  omega

/-! ## Minting -/

/-- An event passes every check of the parse if it is verified, is of this version and kind, and
agrees with its payload, whose name has two parts and whose window is not longer than a card's.

**Proof sketch.** The checks of the parse are taken one after the other, and each is one of the
hypotheses. -/
lemma IdentityCard.fromEvent_eq_ok {N : Nostr} {e : CardEvent} {name : String}
    {notBefore notAfter : ℕ} {parts : String × String} (hverify : N.verify e = .ok ())
    (hkind : e.kind = IDENTITY_CARD_KIND) (hidentifier : e.identifier = some IDENTITY_CARD_DTAG)
    (hcontent : N.contentFromJson e.content = .ok ⟨IDENTITY_CARD_VERSION, name, notBefore,
      notAfter⟩)
    (hname : splitDisplayIdentity name = .ok parts) (hopen : notBefore < notAfter)
    (hshort : notAfter - notBefore ≤ CARD_TTL_SECS) (hcreated : e.createdAt = notBefore)
    (hexpires : e.expiration = some notAfter) (hsize : e.json.utf8ByteSize ≤ MAX_CARD_SIZE) :
    IdentityCard.fromEvent N e = .ok ⟨e.publicKey, name, notBefore, notAfter, e.json⟩ := by
  simp only [IdentityCard.fromEvent, bind_eq_ok, withContext_eq_ok, bailIf_eq_ok, pure, Except.pure]
  refine ⟨(), hverify, (), not_not.2 hkind, (), not_not.2 hidentifier, _, hcontent, (),
    not_not.2 rfl,
    parts, hname, (), Nat.not_le.2 hopen, (), Nat.not_lt.2 hshort, (), not_not.2 hcreated, (),
    not_not.2 hexpires, (), Nat.not_lt.2 hsize, rfl⟩

/-- What the parse asks of a payload that is signed into a card: this version, a name of two parts,
and a window that is not longer than a card's and ends in time. -/
def CardContent.isSound (c : CardContent) : Bool :=
  c.version = IDENTITY_CARD_VERSION && (splitDisplayIdentity c.name).toOption.isSome &&
    c.notBefore < c.notAfter && c.notAfter - c.notBefore ≤ CARD_TTL_SECS && c.notAfter < 2 ^ 64

/-- **The card that is signed for a sound payload passes the parse**, under every library that
verifies its event and reads its payload.

**Proof sketch.** Every check of the parse is one of the things that make a payload sound; the size
is bounded field by field. -/
theorem Nostr.fromEvent_signedEvent {N : Nostr} {key : PublicKey} {c : CardContent}
    (hverify : N.verify (signedEvent key c) = .ok ()) (hcontent : N.contentFromJson c.text = .ok c)
    (h : c.isSound = true) :
    IdentityCard.fromEvent N (signedEvent key c) = .ok (signedCard key c) := by
  obtain ⟨version, name, notBefore, notAfter⟩ := c
  simp only [CardContent.isSound, Bool.and_eq_true, decide_eq_true_eq] at h
  obtain ⟨⟨⟨⟨rfl, hparts⟩, hopen⟩, hlength⟩, hend⟩ := h
  obtain ⟨⟨short, suffix⟩, hparts⟩ := Option.isSome_iff_exists.1 hparts
  have hsplit := toOption_eq_some.1 hparts
  obtain ⟨hname, hsuffix, rfl⟩ := splitDisplayIdentity_eq_ok.1 hsplit
  have hstart := Nat.lt_trans hopen hend
  have hsize := text_draft_le key (text_content_le hname hsuffix hstart hend) hstart hend
    (@List.length_replicate _ 32 (0 : UInt8)) (@List.length_replicate _ 64 (0 : UInt8))
  exact IdentityCard.fromEvent_eq_ok hverify rfl rfl hcontent hsplit hopen hlength rfl rfl hsize

/-- The library of the examples verifies the events that it signs. -/
lemma Nostr.verify_signedEvent (key : PublicKey) (c : CardContent) :
    ofJson.verify (signedEvent key c) = .ok () :=
  verify_ofJson.2 ⟨(canonical_tagged key (draft c) _).symm, rfl, rfl⟩

/-- Its card of a sound payload passes the parse, -/
lemma Nostr.fromEvent_ofJson (key : PublicKey) {c : CardContent} (h : c.isSound = true) :
    IdentityCard.fromEvent ofJson (signedEvent key c) = .ok (signedCard key c) :=
  fromEvent_signedEvent (verify_signedEvent key c) (ofJson_mints.content _ _ rfl) h

/-- and the card is read back from its text. -/
lemma Nostr.parse_ofJson (key : PublicKey) {c : CardContent} (h : c.isSound = true) :
    IdentityCard.parse ofJson (signedCard key c).encode = .ok (signedCard key c) :=
  IdentityCard.parse_encode ofJson_mints.toLawful ⟨_, fromEvent_ofJson key h⟩

section Minting

variable {N : Nostr} {identity : Identity} {name suffix : String} {notBefore : ℕ}

/-- **A card is minted for every valid name and suffix**, if its window ends in time: no check of
the parse refuses it, and its two parts are the given ones.

**Proof sketch.** Signing is given a payload with a valid name and a forward window, so the parse
accepts the event, and the parts of the name are the given ones. -/
theorem cardValidFrom_eq_ok (hN : N.Mints) (hname : validateName name = .ok ())
    (hsuffix : isValidSuffix suffix = true) (hend : notBefore + CARD_TTL_SECS < 2 ^ 64) :
    ∃ card, cardValidFrom N identity name suffix notBefore = .ok card ∧
      card.shortName = some name ∧ card.suffix = some suffix := by
  have hsplit := split_display hname hsuffix
  have httl : 0 < CARD_TTL_SECS := by decide
  obtain ⟨notAfter, hafter⟩ : ∃ t, t = notBefore + CARD_TTL_SECS := ⟨_, rfl⟩
  have hopen : notBefore < notAfter := by omega
  have hlength : notAfter - notBefore ≤ CARD_TTL_SECS := by omega
  rw [← hafter] at hend
  -- the payload, the event that is signed over it, and its size
  have hwrites :=
    hN.writes ⟨IDENTITY_CARD_VERSION, displayIdentity name suffix, notBefore, notAfter⟩
  have hshort := text_content_le hname hsuffix (Nat.lt_trans hopen hend) hend
  have hpayload := hN.content _ _ hwrites
  generalize CardContent.text _ = content at hwrites hshort hpayload
  obtain ⟨e, id, sig, hsign, hid, hsig, hjson⟩ := hN.signs identity.publicKey
    ⟨IDENTITY_CARD_KIND, content, IDENTITY_CARD_DTAG, notAfter, notBefore⟩
  obtain ⟨hverify, -, hkind, hcontent, hidentifier, hexpires, hcreated⟩ := hN.sign _ _ _ hsign
  have hsize : e.json.utf8ByteSize ≤ MAX_CARD_SIZE := by
    rw [hjson]
    exact text_draft_le _ hshort (Nat.lt_trans hopen hend) hend hid hsig
  have hevent := IdentityCard.fromEvent_eq_ok hverify hkind hidentifier
    (by rw [hcontent]; exact hpayload) hsplit hopen hlength hcreated hexpires hsize
  refine ⟨⟨e.publicKey, displayIdentity name suffix, notBefore, notAfter, e.json⟩, ?_,
    IdentityCard.parts_of_name hsplit⟩
  simp only [cardValidFrom, bind_eq_ok, withContext_eq_ok, ← hafter]
  exact ⟨(), hname, _, hsplit, content, hwrites, e, hsign, hevent⟩

/-- What the library of the examples mints is what it signs.

**Proof sketch.** The payload is sound, since its name splits into the two parts and its window is a
lifetime long. A sound payload is signed and parsed as it is. -/
lemma cardValidFrom_ofJson (hname : validateName name = .ok ())
    (hsuffix : isValidSuffix suffix = true) (hend : notBefore + CARD_TTL_SECS < 2 ^ 64) :
    cardValidFrom .ofJson identity name suffix notBefore =
      .ok (Nostr.signedCard identity.publicKey ⟨IDENTITY_CARD_VERSION, displayIdentity name suffix,
        notBefore, notBefore + CARD_TTL_SECS⟩) := by
  have hsplit := split_display hname hsuffix
  have httl : 0 < CARD_TTL_SECS := by decide
  obtain ⟨c, hc⟩ : ∃ c : CardContent, c = ⟨IDENTITY_CARD_VERSION, displayIdentity name suffix,
    notBefore, notBefore + CARD_TTL_SECS⟩ := ⟨_, rfl⟩
  have hsound : c.isSound = true := by
    rw [hc]
    simp only [CardContent.isSound, Bool.and_eq_true, decide_eq_true_eq, hsplit]
    exact ⟨⟨⟨⟨trivial, rfl⟩, by omega⟩, by omega⟩, hend⟩
  have hsign : Nostr.ofJson.sign identity.publicKey (Nostr.draft c) =
      .ok (Nostr.signedEvent identity.publicKey c) := rfl
  have hcard := Nostr.fromEvent_ofJson identity.publicKey hsound
  have hdraft : Nostr.draft c = ⟨IDENTITY_CARD_KIND, c.text, IDENTITY_CARD_DTAG,
      notBefore + CARD_TTL_SECS, notBefore⟩ := by
    rw [Nostr.draft, hc]
  rw [hdraft] at hsign
  simp only [cardValidFrom, bind_eq_ok, withContext_eq_ok, ← hc]
  exact ⟨(), hname, _, hsplit, c.text, rfl, _, hsign, hcard⟩

/-- **A card is minted for no other name or suffix.**

**Proof sketch.** If a card was minted, its name was split into a valid name and a valid suffix. The
separator stands at the same place in both readings, so these are the given ones. -/
theorem cardValidFrom_refused
    (h : ¬ (validateName name = .ok () ∧ isValidSuffix suffix = true)) :
    ∃ e, cardValidFrom N identity name suffix notBefore = .error e := by
  cases hcard : cardValidFrom N identity name suffix notBefore with
  | error e => exact ⟨e, rfl⟩
  | ok card =>
    simp only [cardValidFrom, bind_eq_ok] at hcard
    obtain ⟨_, hname, ⟨name', suffix'⟩, hparts, -⟩ := hcard
    obtain ⟨-, hsuffix', hdisplay⟩ := splitDisplayIdentity_eq_ok.1 hparts
    -- the name has no separator in it, so the suffix is what follows the first one
    have hcut : splitOnce IDENTITY_SEPARATOR (displayIdentity name suffix) = some (name, suffix) :=
      splitOnce_append (not_mem_of_validateName hname)
    have hcut' : splitOnce IDENTITY_SEPARATOR (displayIdentity name suffix) =
        some (name', suffix') := by
      rw [hdisplay]
      exact splitOnce_append
        (not_mem_of_validateName (splitDisplayIdentity_eq_ok.1 hparts).1)
    rw [hcut] at hcut'
    cases hcut'
    exact absurd ⟨hname, hsuffix'⟩ h

end Minting

/-! ## Handing it over -/

/-- **Every card is read back from its text, and from the frame that offers it.** A card is minted
for exactly the valid names and suffixes, for every start whose window ends in time, and its two
parts are the given ones. The names that have two parts are exactly those that are put together from
valid ones, so every card that is accepted has them. Every card that is accepted, whoever minted it,
is parsed from its text, fits in the frame that offers it, and is offered by the bytes of that
frame.

**Proof sketch.** The first three parts are the lemmas above. A card that the parse accepts has a
text that is read back, and is offered in a frame that fits and is decoded to that text. -/
theorem card_round_trip {N : Nostr} (hN : N.Mints) {offers : Serde CardOffer}
    (hoffers : offers.ReadsFrames CardOffer.toFrame CardOffer.ofFrame CardOffer.version) :
    (∀ identity name suffix notBefore, validateName name = .ok () → isValidSuffix suffix = true →
      notBefore + CARD_TTL_SECS < 2 ^ 64 →
      ∃ card, cardValidFrom N identity name suffix notBefore = .ok card ∧
        card.shortName = some name ∧ card.suffix = some suffix) ∧
    (∀ identity name suffix notBefore,
      ¬ (validateName name = .ok () ∧ isValidSuffix suffix = true) →
      ∃ e, cardValidFrom N identity name suffix notBefore = .error e) ∧
    (∀ display, (∃ parts, splitDisplayIdentity display = .ok parts) ↔ ∃ name suffix,
      validateName name = .ok () ∧ isValidSuffix suffix = true ∧
        display = displayIdentity name suffix) ∧
    ∀ event card, IdentityCard.fromEvent N event = .ok card →
      (∃ name suffix, card.shortName = some name ∧ card.suffix = some suffix) ∧
      IdentityCard.parse N card.encode = .ok card ∧
      ∃ bs, offers.encodeLengthPrefixed MAX_CONTROL_MESSAGE_SIZE "CardOffer"
          (CardOffer.new card.encode) = .ok bs ∧ bs.length ≤ 4 + MAX_CONTROL_MESSAGE_SIZE ∧
        ∃ offer, offers.decodeLengthPrefixed MAX_CONTROL_MESSAGE_SIZE "CardOffer" bs = .ok offer ∧
          IdentityCard.parse N offer.card = .ok card := by
  refine ⟨fun _ _ _ _ => cardValidFrom_eq_ok hN, fun _ _ _ _ => cardValidFrom_refused,
    fun display => ?_, fun event card hevent => ?_⟩
  · constructor
    · rintro ⟨⟨name, suffix⟩, h⟩
      exact ⟨name, suffix, splitDisplayIdentity_eq_ok.1 h⟩
    · rintro ⟨name, suffix, h⟩
      exact ⟨(name, suffix), splitDisplayIdentity_eq_ok.2 h⟩
  · have hverified : card.Verified N := ⟨event, hevent⟩
    have hparse := IdentityCard.parse_encode hN.toLawful hverified
    obtain ⟨⟨name, suffix⟩, hparts⟩ := (IdentityCard.fromEvent_ok hevent).name
    have hcap : MAX_CONTROL_MESSAGE_SIZE < 2 ^ 32 := by decide
    obtain ⟨bs, hencode, hlen, hdecode⟩ := hoffers.sent hcap (IdentityCard.offer_fits hverified)
      (decodeCardOffer_toFrame card.encode)
    exact ⟨⟨name, suffix, IdentityCard.parts_of_name hparts⟩, hparse, bs, hencode, hlen, _, hdecode,
      hparse⟩

/-- **A card that is minted for a valid name is offered and read back.** -/
theorem card_round_trip_sample : ∃ card,
    cardValidFrom .ofJson ⟨.filled 7⟩ "desk" "a7B2c3D4" 5 = .ok card ∧
    card.shortName = some "desk" ∧ IdentityCard.parse .ofJson card.encode = .ok card := by
  obtain ⟨hmint, -, -, haccepted⟩ := card_round_trip Nostr.ofJson_mints
    (Serde.ofFrames_readsFrames CardOffer.toFrame CardOffer.ofFrame CardOffer.version)
  obtain ⟨card, hcard, hname, -⟩ := hmint ⟨.filled 7⟩ "desk" "a7B2c3D4" 5
    (by decide +kernel) (by decide +kernel) (by decide)
  obtain ⟨event, hevent⟩ : card.Verified .ofJson := by
    simp only [cardValidFrom, bind_eq_ok] at hcard
    obtain ⟨_, -, _, -, _, -, event, -, hevent⟩ := hcard
    exact ⟨event, hevent⟩
  obtain ⟨-, hparse, -⟩ := haccepted event card hevent
  exact ⟨card, hcard, hname, hparse⟩

end Duocb
