import Duocb.Basic

set_option relaxedAutoImplicit false
set_option autoImplicit false

/-!
# PINs

A PIN is eight Crockford base32 characters, the last of which checks the others. What a user types
is brought into this form, or rejected; what is shown is split into two groups. The texts are UTF-8,
and some of the source's checks are made on bytes, so both are kept apart here.

## Main definitions

* `Duocb.checkChar`, `Duocb.generatePin` — the check character, and a fresh PIN.
* `Duocb.normalizePin` — the canonical form of what was typed.
* `Duocb.formatPin`, `Duocb.sanitizePinChars`, `Duocb.splitPinGroups` — how a PIN is shown and
  typed.
* `Duocb.CanonicalPin` — what a PIN is.

## Main results

* `Duocb.normalizePin_eq_some` — exactly what is accepted, and as what.
* `Duocb.pinChar_of_ascii`, `Duocb.pinChar_of_not_ascii` — where the check of a character holds.
-/

namespace Duocb

/-- Crockford base32 alphabet: digits and uppercase letters without `I L O U`. -/
def ALPHABET : Bytes := utf8 "0123456789ABCDEFGHJKMNPQRSTVWXYZ"

/-- Number of significant characters in a PIN. -/
def PIN_LEN : ℕ := 8

/-- Trailing characters of a PIN that form the check digit. -/
def PIN_CHECK_LEN : ℕ := 1

/-- Random data characters. -/
def PIN_DATA_LEN : ℕ := PIN_LEN - PIN_CHECK_LEN

/-- Characters of a display group. -/
def PIN_GROUP_LEN : ℕ := PIN_LEN / 2

/-- Rotation period, in seconds. -/
def BUCKET_SECS : ℕ := 60

/-- A character cut to its low byte, as the cast to a byte does it. -/
def asU8 (c : Char) : UInt8 := UInt8.ofNat c.toNat

/-- The place of a byte in the alphabet, or zero. -/
def pinIndex (b : UInt8) : ℕ := (ALPHABET.idxOf? b).getD 0

/-- The weighted sum of data characters, whose first one stands at place `i`. -/
def weightedSum : ℕ → Bytes → ℕ
  | _, [] => 0
  | i, b :: rest => pinIndex b * (i + 1) + weightedSum (i + 1) rest

/-- Position-weighted check character over data characters. -/
def checkChar (data : Bytes) : UInt8 :=
  ALPHABET.getD (weightedSum 0 data % ALPHABET.length) 0

/-- A fresh PIN, from as many random bytes as it has data characters. -/
def generatePin (random : Fin PIN_DATA_LEN → UInt8) : String :=
  let data := List.ofFn fun i => ALPHABET.getD ((random i).toNat % 32) 0
  String.ofList ((data ++ [checkChar data]).map Char.ofUInt8)

/-! ## Typing a PIN -/

/-- The characters that group a PIN. -/
def isSeparator (c : Char) : Bool := c = ' ' ∨ c = '-' ∨ c = '\t'

/-- A typed character in upper case, with the look-alikes mapped to digits. -/
def pinChar (c : Char) : Char :=
  let up := c.toUpper
  if up = 'I' ∨ up = 'L' then '1' else if up = 'O' then '0' else up

/-- Collect the significant characters, as long as they are of the alphabet and fit. Separators are
passed over. A character that is not of the alphabet, and one too many, end the reading with
nothing. -/
def collectPin : List Char → List Char → Option (List Char)
  | [], out => some out
  | c :: cs, out =>
    if isSeparator c then collectPin cs out
    else if asU8 (pinChar c) ∉ ALPHABET then none
    else if (utf8 (String.ofList (out ++ [pinChar c]))).length > PIN_LEN then none
    else collectPin cs (out ++ [pinChar c])

/-- Normalize user-typed input to the canonical PIN form. It must have the length of a PIN, and its
last character must be the check character of the others. -/
def normalizePin (input : String) : Option String := do
  let out ← collectPin input.toList []
  let bytes := utf8 (String.ofList out)
  if bytes.length ≠ PIN_LEN then none
  else if bytes.drop PIN_DATA_LEN ≠ [checkChar (bytes.take PIN_DATA_LEN)] then none
  else some (String.ofList out)

/-- Sanitize user input to canonical PIN characters, without a length cap. -/
def sanitizePinChars (input : String) : String :=
  String.ofList (input.toList.filterMap fun c =>
    if asU8 (pinChar c) ∈ ALPHABET then some (pinChar c) else none)

/-- Count the significant characters in a PIN entry. -/
def pinInputLen (input : String) : ℕ := (sanitizePinChars input).toList.length

/-- A text cut to a display group. -/
def capGroup (s : String) : String := String.ofList (s.toList.take PIN_GROUP_LEN)

/-- Place two sanitized entry groups into their final form. A paste of the whole code into the first
field spills into the second. -/
def splitPinGroups (first second : String) : String × String :=
  if first.toList.length > PIN_GROUP_LEN ∧ second = "" then
    (capGroup first, String.ofList ((first.toList.drop PIN_GROUP_LEN).take PIN_GROUP_LEN))
  else (capGroup first, capGroup second)

/-! ## Showing a PIN -/

/-- Cut a text at a byte. There is nothing to cut inside a character: the slice panics there. The
count goes down by the size of each character that is passed. -/
def splitAtByte : List Char → ℕ → Option (List Char × List Char)
  | cs, 0 => some ([], cs)
  | [], _ + 1 => none
  | c :: cs, n + 1 =>
    if c.utf8Size ≤ n + 1 then
      (splitAtByte cs (n + 1 - c.utf8Size)).map fun (left, right) => (c :: left, right)
    else none

/-- Format a canonical PIN for display. -/
def formatPin (canonical : String) : Option String :=
  if canonical.utf8ByteSize ≠ PIN_LEN then some canonical.toUpper
  else (splitAtByte canonical.toList (PIN_LEN / 2)).map fun (left, right) =>
    String.ofList left ++ "-" ++ String.ofList right

/-! ## Canonical PINs -/

/-- The alphabet, as characters. -/
def PIN_CHARS : List Char := "0123456789ABCDEFGHJKMNPQRSTVWXYZ".toList

/-- The check character of data characters, as a character. -/
def pinCheck (data : List Char) : Char := Char.ofUInt8 (checkChar (data.map asU8))

/-- What a PIN is: data characters and their check character. -/
structure CanonicalPin (p : String) : Prop where
  length : p.toList.length = PIN_LEN
  alphabet : ∀ c ∈ p.toList, c ∈ PIN_CHARS
  check : ∃ data : List Char, p.toList = data ++ [pinCheck data]

/-- A character is an ASCII one. -/
def IsAscii (c : Char) : Prop := c.toNat < 128

/-- Whether a character is ASCII is decided by its code. -/
instance (c : Char) : Decidable (IsAscii c) := inferInstanceAs (Decidable (c.toNat < 128))

/-! ## Characters -/

/-- What holds of each ASCII character holds of all of them. -/
lemma forall_ascii {P : Char → Prop} (h : ∀ n : Fin 128, P (Char.ofNat n)) {c : Char}
    (hc : IsAscii c) : P c := by
  have hn := h ⟨c.toNat, hc⟩
  rwa [Char.ofNat_toNat] at hn

/-- A character outside ASCII is not an ASCII one. -/
lemma ne_of_not_ascii {c d : Char} (h : ¬ IsAscii c) (hd : IsAscii d) : c ≠ d := by
  rintro rfl
  exact h hd

/-- A character outside ASCII has no other case here, -/
lemma toUpper_of_not_ascii {c : Char} (h : ¬ IsAscii c) : c.toUpper = c := by
  have hbig : 128 ≤ c.toNat := Nat.le_of_not_lt h
  unfold Char.toUpper
  rw [dif_neg]
  rintro ⟨-, hz⟩
  have hle : c.toNat ≤ 122 := UInt32.le_iff_toNat_le.1 hz
  omega

/-- and is no look-alike. -/
lemma pinChar_of_not_ascii {c : Char} (h : ¬ IsAscii c) : pinChar c = c := by
  unfold pinChar
  rw [toUpper_of_not_ascii h, if_neg, if_neg (ne_of_not_ascii h (by decide))]
  rintro (rfl | rfl)
  · exact h (by decide)
  · exact h (by decide)

/-- A character that a PIN may be typed with: one of the alphabet, a look-alike, either of them in
the other case, or a separator. -/
def Accepted (c : Char) : Prop :=
  c.toUpper ∈ PIN_CHARS ∨ c.toUpper ∈ ['I', 'L', 'O'] ∨ isSeparator c

/-- Whether a character is accepted is decided by its upper case and the lists of characters. -/
instance (c : Char) : Decidable (Accepted c) :=
  inferInstanceAs (Decidable (_ ∨ _ ∨ _))

/-- An ASCII character passes for one of the alphabet only if it is typed for one. -/
lemma pinChar_of_ascii {c : Char} (hc : IsAscii c) (h : asU8 (pinChar c) ∈ ALPHABET) :
    pinChar c ∈ PIN_CHARS ∧ Accepted c := by
  have hall : ∀ n : Fin 128, asU8 (pinChar (Char.ofNat n)) ∈ ALPHABET →
      pinChar (Char.ofNat n) ∈ PIN_CHARS ∧ Accepted (Char.ofNat n) := by decide +kernel
  exact forall_ascii
    (P := fun c => asU8 (pinChar c) ∈ ALPHABET → pinChar c ∈ PIN_CHARS ∧ Accepted c)
    hall hc h

/-- What holds of a character of the alphabet. These are the facts that the reading of a PIN needs
of each of its characters. -/
structure PinChar (c : Char) : Prop where
  ascii : IsAscii c
  pinChar_eq : pinChar c = c
  significant : isSeparator c = false
  asU8_mem : asU8 c ∈ ALPHABET
  encode : String.utf8EncodeChar c = [asU8 c]
  ofUInt8 : Char.ofUInt8 (asU8 c) = c

/-- The characters of the alphabet stand for themselves. -/
lemma pinChar_spec {c : Char} (h : c ∈ PIN_CHARS) : PinChar c := by
  have hall : PIN_CHARS.all (fun c => IsAscii c ∧ pinChar c = c ∧ isSeparator c = false ∧
      asU8 c ∈ ALPHABET ∧ String.utf8EncodeChar c = [asU8 c] ∧
        Char.ofUInt8 (asU8 c) = c) = true := by
    decide +kernel
  obtain ⟨h1, h2, h3, h4, h5, h6⟩ := of_decide_eq_true (List.all_eq_true.1 hall c h)
  exact ⟨h1, h2, h3, h4, h5, h6⟩

/-- The bytes of a text are those of its characters. -/
lemma utf8_ofList (cs : List Char) :
    utf8 (String.ofList cs) = cs.flatMap String.utf8EncodeChar := by
  rw [utf8, String.toByteArray_ofList]
  simp [List.utf8Encode]

/-- The bytes of characters of the alphabet are the characters. -/
lemma utf8_of_pinChars {cs : List Char} (h : ∀ c ∈ cs, c ∈ PIN_CHARS) :
    utf8 (String.ofList cs) = cs.map asU8 := by
  rw [utf8_ofList]
  induction cs with
  | nil => rfl
  | cons c cs ih =>
    rw [List.forall_mem_cons] at h
    rw [List.flatMap_cons, (pinChar_spec h.1).encode, ih h.2]
    rfl

/-! ## What is accepted -/

/-- The significant characters of what was typed. -/
def significant (input : String) : List Char :=
  (input.toList.filter fun c => !isSeparator c).map pinChar

/-- The characters that are collected are the significant ones, if they pass for the alphabet and
fit.

**Proof sketch.** By induction on what is typed. The length is checked after every character, but
it only grows, so the last check says it all. -/
lemma collectPin_eq_some {cs acc out : List Char}
    (hacc : (utf8 (String.ofList acc)).length ≤ PIN_LEN) :
    collectPin cs acc = some out ↔
      out = acc ++ (cs.filter fun c => !isSeparator c).map pinChar ∧
      (∀ c ∈ (cs.filter fun c => !isSeparator c).map pinChar, asU8 c ∈ ALPHABET) ∧
      (utf8 (String.ofList out)).length ≤ PIN_LEN := by
  induction cs generalizing acc with
  | nil =>
    simp only [collectPin, Option.some.injEq, List.filter_nil, List.map_nil, List.append_nil,
      List.not_mem_nil, false_implies, implies_true, true_and]
    constructor
    · rintro rfl
      exact ⟨rfl, hacc⟩
    · exact fun h => h.1.symm
  | cons c cs ih =>
    by_cases hsep : isSeparator c = true
    · rw [collectPin, if_pos hsep, List.filter_cons_of_neg (by simp [hsep])]
      exact ih hacc
    · rw [collectPin, if_neg hsep, List.filter_cons_of_pos (by simp [hsep]), List.map_cons,
        List.forall_mem_cons]
      by_cases hmem : asU8 (pinChar c) ∈ ALPHABET
      · rw [if_neg (not_not.2 hmem)]
        by_cases hlen : (utf8 (String.ofList (acc ++ [pinChar c]))).length > PIN_LEN
        · rw [if_pos hlen]
          simp only [reduceCtorEq, false_iff, not_and]
          rintro rfl - hout
          rw [utf8_ofList] at hlen hout
          simp only [List.flatMap_append, List.flatMap_cons, List.length_append] at hlen hout
          simp only [List.flatMap_nil, List.length_nil] at hlen
          omega
        · rw [if_neg hlen, ih (Nat.le_of_not_lt hlen)]
          simp [hmem]
      · rw [if_pos hmem]
        simp [hmem]

/-- **Exactly what is accepted, and as what.**

**Proof sketch.** Collecting accepts exactly the texts whose significant characters pass for the
alphabet and are not too many; the checks of the length and of the check character are left. -/
theorem normalizePin_eq_some {input p : String} :
    normalizePin input = some p ↔ p = String.ofList (significant input) ∧
      (∀ c ∈ significant input, asU8 c ∈ ALPHABET) ∧
      (utf8 (String.ofList (significant input))).length = PIN_LEN ∧
      (utf8 (String.ofList (significant input))).drop PIN_DATA_LEN =
        [checkChar ((utf8 (String.ofList (significant input))).take PIN_DATA_LEN)] := by
  simp only [normalizePin, Option.bind_eq_bind, Option.bind_eq_some_iff]
  constructor
  · rintro ⟨out, hout, h⟩
    obtain ⟨rfl, hmem, -⟩ := (collectPin_eq_some (by decide)).1 hout
    rw [List.nil_append] at h
    split_ifs at h with hlen hcheck
    exact ⟨(Option.some.inj h).symm, hmem, not_not.1 hlen, not_not.1 hcheck⟩
  · rintro ⟨rfl, hmem, hlen, hcheck⟩
    refine ⟨significant input,
      (collectPin_eq_some (by decide)).2 ⟨rfl, hmem, Nat.le_of_eq hlen⟩, ?_⟩
    rw [if_neg (not_not.2 hlen), if_neg (not_not.2 hcheck)]

end Duocb
