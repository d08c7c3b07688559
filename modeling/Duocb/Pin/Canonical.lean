import Duocb.Pin

set_option relaxedAutoImplicit false
set_option autoImplicit false

/-!
# What is accepted as a PIN

A typed PIN that is accepted is canonical, unless it holds a character outside ASCII whose low byte
passes for one of the alphabet. The check character tells a PIN from every neighbour in which two
data characters change places, and from most of those with one other character: at an even place
some pairs of characters weigh the same.

## Main definitions

* `Duocb.NormalizedPin` — what an accepted text is normalized to.
* `Duocb.Masquerades` — a text that is accepted for the low bytes of its characters.

## Main results

* `Duocb.normalizePin_canonical` — when only canonical PINs are accepted.
* `Duocb.checkChar_catches` — which typos are caught.
* `Duocb.generatePin_canonical` — a fresh PIN is canonical.
-/

namespace Duocb

/-! ## Canonical PINs -/

/-- A text of the alphabet is its own significant part. -/
lemma significant_ofList {cs : List Char} (h : ∀ c ∈ cs, c ∈ PIN_CHARS) :
    significant (String.ofList cs) = cs := by
  have hfilter : cs.filter (fun c => !isSeparator c) = cs :=
    List.filter_eq_self.2 fun c hc => by rw [(pinChar_spec (h c hc)).significant]; rfl
  rw [significant, String.toList_ofList, hfilter]
  calc cs.map pinChar = cs.map id :=
        List.map_congr_left fun c hc => (pinChar_spec (h c hc)).pinChar_eq
    _ = cs := List.map_id cs

/-- A character made of a byte has that byte as its low one. -/
@[simp] lemma asU8_ofUInt8 (b : UInt8) : asU8 (Char.ofUInt8 b) = b := by
  show UInt8.ofNat b.toUInt32.toNat = b
  simp

/-- The check character has the check byte as its low one. -/
lemma asU8_pinCheck (data : List Char) : asU8 (pinCheck data) = checkChar (data.map asU8) :=
  asU8_ofUInt8 _

/-- A byte of the alphabet is a character of it. -/
lemma ofUInt8_mem {b : UInt8} (h : b ∈ ALPHABET) : Char.ofUInt8 b ∈ PIN_CHARS := by
  have hall : ALPHABET.all (fun b => Char.ofUInt8 b ∈ PIN_CHARS) = true := by decide +kernel
  exact of_decide_eq_true (List.all_eq_true.1 hall b h)

/-- An index of five bits is that of a byte in the alphabet. -/
lemma getD_mem_alphabet (n : ℕ) : ALPHABET.getD (n % 32) 0 ∈ ALPHABET := by
  have hlen : ALPHABET.length = 32 := rfl
  have hn : n % 32 < ALPHABET.length := hlen ▸ Nat.mod_lt _ (by decide)
  rw [List.getD, List.getElem?_eq_getElem hn, Option.getD_some]
  exact List.getElem_mem hn

/-- The check character is one that a PIN is made of. -/
lemma pinCheck_mem (data : List Char) : pinCheck data ∈ PIN_CHARS :=
  ofUInt8_mem (getD_mem_alphabet _)

/-- The last of eight characters of the alphabet checks the others if its byte does.

**Proof sketch.** The eight characters are cut behind the seventh. Their bytes are cut there too,
and the byte of the last one is the character itself. -/
lemma exists_data_iff {cs : List Char} (h : ∀ c ∈ cs, c ∈ PIN_CHARS) (hlen : cs.length = PIN_LEN) :
    (cs.map asU8).drop PIN_DATA_LEN = [checkChar ((cs.map asU8).take PIN_DATA_LEN)] ↔
      ∃ data, cs = data ++ [pinCheck data] := by
  rw [← List.map_drop, ← List.map_take]
  constructor
  · intro hcheck
    obtain ⟨c, hc⟩ : ∃ c, cs.drop PIN_DATA_LEN = [c] :=
      List.length_eq_one_iff.1 (by rw [List.length_drop, hlen]; rfl)
    have hmem : c ∈ cs := List.mem_of_mem_drop (hc ▸ List.mem_singleton_self c)
    rw [hc, List.map_singleton, List.cons.injEq] at hcheck
    refine ⟨cs.take PIN_DATA_LEN, ?_⟩
    rw [pinCheck, ← hcheck.1, (pinChar_spec (h c hmem)).ofUInt8, ← hc, List.take_append_drop]
  · rintro ⟨data, rfl⟩
    have hdata : data.length = PIN_DATA_LEN := by
      rw [List.length_append, List.length_singleton] at hlen
      exact Nat.succ.inj hlen
    rw [← hdata, List.drop_left, List.take_left, List.map_singleton, asU8_pinCheck]

/-- A text of the alphabet is accepted, as it is, if it has the length of a PIN and ends with the
check character of the others. -/
lemma normalizePin_ofList {cs : List Char} {p : String} (h : ∀ c ∈ cs, c ∈ PIN_CHARS) :
    normalizePin (String.ofList cs) = some p ↔ p = String.ofList cs ∧ cs.length = PIN_LEN ∧
      ∃ data, cs = data ++ [pinCheck data] := by
  rw [normalizePin_eq_some, significant_ofList h, utf8_of_pinChars h, List.length_map]
  constructor
  · rintro ⟨hp, -, hlen, hcheck⟩
    exact ⟨hp, hlen, (exists_data_iff h hlen).1 hcheck⟩
  · rintro ⟨hp, hlen, hdata⟩
    exact ⟨hp, fun c hc => (pinChar_spec (h c hc)).asU8_mem, hlen, (exists_data_iff h hlen).2 hdata⟩

/-- A canonical PIN is accepted, as it is. -/
lemma CanonicalPin.normalizePin_eq {p : String} (h : CanonicalPin p) : normalizePin p = some p := by
  have hp := (normalizePin_ofList (p := p) h.alphabet).2 ⟨by simp, h.length, h.check⟩
  rwa [String.ofList_toList] at hp

/-- What is canonical, of texts of the alphabet. -/
lemma canonicalPin_ofList {cs : List Char} (h : ∀ c ∈ cs, c ∈ PIN_CHARS)
    (hlen : cs.length = PIN_LEN)
    (hdata : ∃ data, cs = data ++ [pinCheck data]) : CanonicalPin (String.ofList cs) :=
  ⟨by rwa [String.toList_ofList], by rwa [String.toList_ofList], by rwa [String.toList_ofList]⟩

/-- **A fresh PIN is canonical.**

**Proof sketch.** Every index of five bits is that of a byte of the alphabet, the check byte is one
of them too, and the check character is computed from the others. -/
theorem generatePin_canonical (random : Fin PIN_DATA_LEN → UInt8) :
    CanonicalPin (generatePin random) := by
  let data : Bytes := List.ofFn fun i => ALPHABET.getD ((random i).toNat % 32) 0
  have hdata : ∀ b ∈ data, b ∈ ALPHABET := by
    intro b hb
    obtain ⟨i, rfl⟩ := List.mem_ofFn.1 hb
    exact getD_mem_alphabet _
  have hcheck : checkChar data ∈ ALPHABET := getD_mem_alphabet _
  refine canonicalPin_ofList ?_ ?_ ⟨data.map Char.ofUInt8, ?_⟩
  · intro c hc
    obtain ⟨b, hb, rfl⟩ := List.mem_map.1 hc
    rcases List.mem_append.1 hb with hb | hb
    · exact ofUInt8_mem (hdata b hb)
    · exact ofUInt8_mem (List.mem_singleton.1 hb ▸ hcheck)
  · simp [PIN_DATA_LEN, PIN_LEN, PIN_CHECK_LEN]
  · rw [List.map_append, List.map_singleton]
    have hbytes : (data.map Char.ofUInt8).map asU8 = data := by
      rw [List.map_map]
      calc data.map (asU8 ∘ Char.ofUInt8) = data.map id :=
            List.map_congr_left fun b _ => asU8_ofUInt8 b
        _ = data := List.map_id data
    rw [pinCheck, hbytes]

/-! ## Showing a canonical PIN -/

/-- A text of the alphabet can be cut at any of its bytes.

**Proof sketch.** By induction on the text; each of its characters takes one byte. -/
lemma splitAtByte_eq {cs : List Char} {n : ℕ} (h : ∀ c ∈ cs, c ∈ PIN_CHARS) (hn : n ≤ cs.length) :
    splitAtByte cs n = some (cs.take n, cs.drop n) := by
  induction cs generalizing n with
  | nil =>
    obtain rfl := Nat.le_zero.1 hn
    rfl
  | cons c cs ih =>
    cases n with
    | zero => rfl
    | succ n =>
      rw [List.forall_mem_cons] at h
      have hsize : c.utf8Size = 1 := by
        rw [← String.length_utf8EncodeChar, (pinChar_spec h.1).encode]
        rfl
      rw [splitAtByte, if_pos (by omega), hsize, Nat.add_sub_cancel,
        ih h.2 (Nat.le_of_succ_le_succ hn)]
      rfl

/-- A canonical PIN is shown in two groups, and what is shown is accepted as the PIN.

**Proof sketch.** The text is cut behind its fourth character. Both groups are significant
characters, and the dash between them is not, so that the text is read as before. -/
lemma CanonicalPin.formatPin_eq {p : String} (h : CanonicalPin p) :
    ∃ display, formatPin p = some display ∧ normalizePin display = some p := by
  have hbytes : p.utf8ByteSize = PIN_LEN := by
    rw [← length_utf8, ← String.ofList_toList (s := p), utf8_of_pinChars h.alphabet,
      List.length_map, h.length]
  have hsplit := splitAtByte_eq (n := PIN_LEN / 2) h.alphabet (by rw [h.length]; decide)
  refine ⟨_, by rw [formatPin, if_neg (not_not.2 hbytes), hsplit]; rfl, ?_⟩
  -- the dash between the groups is not significant
  have hpart : ∀ cs : List Char, (∀ c ∈ cs, c ∈ p.toList) →
      (cs.filter fun c => !isSeparator c).map pinChar = cs := fun cs hcs => by
    have := significant_ofList fun c hc => h.alphabet c (hcs c hc)
    rwa [significant, String.toList_ofList] at this
  have hsig : significant (String.ofList (p.toList.take (PIN_LEN / 2)) ++ "-" ++
      String.ofList (p.toList.drop (PIN_LEN / 2))) = p.toList := by
    have hdash : "-".toList.filter (fun c => !isSeparator c) = [] := by decide
    simp only [significant, String.toList_append, String.toList_ofList]
    rw [List.filter_append, List.filter_append, hdash, List.append_nil,
      List.map_append, hpart _ fun c hc => List.mem_of_mem_take hc,
      hpart _ fun c hc => List.mem_of_mem_drop hc, List.take_append_drop]
  have hown := normalizePin_eq_some.1 h.normalizePin_eq
  have hsig' : significant p = p.toList := by
    conv_lhs => rw [← String.ofList_toList (s := p)]
    exact significant_ofList h.alphabet
  rw [hsig'] at hown
  exact normalizePin_eq_some.2 (by rw [hsig]; exact hown)

/-- A canonical PIN has the length of one. -/
lemma CanonicalPin.pinInputLen_eq {p : String} (h : CanonicalPin p) : pinInputLen p = PIN_LEN := by
  have hsame : p.toList.filterMap (fun c =>
      if asU8 (pinChar c) ∈ ALPHABET then some (pinChar c) else none) = p.toList := by
    have hsome : ∀ c ∈ p.toList,
        (if asU8 (pinChar c) ∈ ALPHABET then some (pinChar c) else none) = some c := by
      intro c hc
      have hspec := pinChar_spec (h.alphabet c hc)
      rw [hspec.pinChar_eq, if_pos hspec.asU8_mem]
    rw [List.filterMap_congr hsome, List.filterMap_some]
  rw [pinInputLen, sanitizePinChars, hsame, String.toList_ofList, h.length]

/-! ## What is accepted -/

/-- What an accepted text is normalized to. The result is a canonical PIN, normalizing it again
changes nothing, and neither does showing it and typing what is shown. -/
structure NormalizedPin (input p : String) : Prop where
  canonical : CanonicalPin p
  typed : ∀ c ∈ input.toList, Accepted c
  again : normalizePin p = some p
  inputLen : pinInputLen p = PIN_LEN
  shown : ∃ display, formatPin p = some display ∧ normalizePin display = some p

/-- A text is accepted for the low bytes of its characters: one of them is not an ASCII character,
and all of them pass for characters of the alphabet, have the length of a PIN in bytes, and end with
the check character of the other bytes. -/
structure Masquerades (input : String) : Prop where
  foreign : ∃ c ∈ input.toList, ¬ IsAscii c
  passes : ∀ c ∈ significant input, asU8 c ∈ ALPHABET
  fits : (utf8 (String.ofList (significant input))).length = PIN_LEN
  checks : (utf8 (String.ofList (significant input))).drop PIN_DATA_LEN =
    [checkChar ((utf8 (String.ofList (significant input))).take PIN_DATA_LEN)]

/-- A PIN is typed with ASCII characters. -/
lemma Accepted.ascii {c : Char} (h : Accepted c) : IsAscii c := by
  by_contra hc
  rcases h with h | h | h
  · rw [toUpper_of_not_ascii hc] at h
    exact hc (pinChar_spec h).ascii
  · have hall : ∀ d ∈ ['I', 'L', 'O'], IsAscii d := by simp [IsAscii]
    rw [toUpper_of_not_ascii hc] at h
    exact hc (hall c h)
  · rw [isSeparator, decide_eq_true_eq] at h
    rcases h with rfl | rfl | rfl
    all_goals exact hc (by decide)

/-- A text that is accepted and does not masquerade is typed in ASCII, and normalized to a PIN.

**Proof sketch.** A text that is not ASCII would masquerade. In ASCII each significant character is
one of the alphabet, with one byte, so that the checks on bytes are checks on characters. -/
lemma canonicalPin_of_not_masquerades {input p : String} (hp : normalizePin input = some p)
    (hmask : ¬ Masquerades input) : CanonicalPin p ∧ ∀ c ∈ input.toList, IsAscii c := by
  obtain ⟨rfl, hpasses, hfits, hchecks⟩ := normalizePin_eq_some.1 hp
  have hascii : ∀ c ∈ input.toList, IsAscii c := fun c hc => by
    by_contra hforeign
    exact hmask ⟨⟨c, hc, hforeign⟩, hpasses, hfits, hchecks⟩
  have hchars : ∀ c ∈ significant input, c ∈ PIN_CHARS := by
    intro c hc
    obtain ⟨d, hd, rfl⟩ := List.mem_map.1 hc
    exact (pinChar_of_ascii (hascii d (List.mem_of_mem_filter hd)) (hpasses _ hc)).1
  refine ⟨?_, hascii⟩
  rw [utf8_of_pinChars hchars, List.length_map] at hfits
  rw [utf8_of_pinChars hchars] at hchecks
  exact canonicalPin_ofList hchars hfits ((exists_data_iff hchars hfits).1 hchecks)

/-- A text that masquerades is accepted, and not normalized to a PIN. -/
lemma Masquerades.accepted {input : String} (hmask : Masquerades input) :
    ∃ p, normalizePin input = some p ∧ ¬ CanonicalPin p := by
  refine ⟨_, normalizePin_eq_some.2 ⟨rfl, hmask.passes, hmask.fits, hmask.checks⟩, fun hp => ?_⟩
  obtain ⟨c, hc, hforeign⟩ := hmask.foreign
  have hsep : isSeparator c = false := by
    by_contra hsep
    rw [Bool.not_eq_false, isSeparator, decide_eq_true_eq] at hsep
    rcases hsep with rfl | rfl | rfl
    all_goals exact hforeign (by decide)
  have hsig : c ∈ significant input :=
    List.mem_map.2 ⟨c, List.mem_filter.2 ⟨hc, by simp [hsep]⟩, pinChar_of_not_ascii hforeign⟩
  have hchar := hp.alphabet c (by rw [String.toList_ofList]; exact hsig)
  exact hforeign (pinChar_spec hchar).ascii

/-- **Only canonical PINs are accepted**, of texts that do not masquerade.

**Proof sketch.** A text that masquerades is accepted, and has a character that no PIN is made of. A
text that does not is made of ASCII characters once it is accepted, and these are the ones that a
person may type. -/
theorem normalizePin_canonical (input : String) :
    (∀ p, normalizePin input = some p → NormalizedPin input p) ↔ ¬ Masquerades input := by
  constructor
  · intro h hmask
    have hp := normalizePin_eq_some.2 ⟨rfl, hmask.passes, hmask.fits, hmask.checks⟩
    obtain ⟨c, hc, hforeign⟩ := hmask.foreign
    exact hforeign ((h _ hp).typed c hc).ascii
  · intro hmask p hp
    obtain ⟨hcanonical, hascii⟩ := canonicalPin_of_not_masquerades hp hmask
    obtain ⟨rfl, hpasses, -⟩ := normalizePin_eq_some.1 hp
    refine ⟨hcanonical, fun c hc => ?_, hcanonical.normalizePin_eq, hcanonical.pinInputLen_eq,
      hcanonical.formatPin_eq⟩
    by_cases hsep : isSeparator c = true
    · exact Or.inr (Or.inr hsep)
    · have hsig : pinChar c ∈ significant input :=
        List.mem_map.2 ⟨c, List.mem_filter.2 ⟨hc, by simpa using hsep⟩, rfl⟩
      exact (pinChar_of_ascii (hascii c hc) (hpasses _ hsig)).2

/-- **A text that is no PIN is accepted**: its fourth character passes for a zero by its low byte.
It has seven characters, and cannot be cut into two groups. -/
theorem normalizePin_masquerade :
    normalizePin "000\u0130000" = some "000\u0130000" ∧ "000\u0130000".toList.length = 7 ∧
    formatPin "000\u0130000" = none ∧ ¬ NormalizedPin "000\u0130000" "000\u0130000" := by
  have hformat : formatPin "000\u0130000" = none := by decide +kernel
  refine ⟨by decide +kernel, by decide +kernel, hformat, fun h => ?_⟩
  obtain ⟨display, hdisplay, -⟩ := h.shown
  rw [hformat] at hdisplay
  cases hdisplay

/-! ## Typos -/

/-- The place of a character in the alphabet. -/
lemma pinIndex_spec {c : Char} (h : c ∈ PIN_CHARS) :
    pinIndex (asU8 c) < 32 ∧ PIN_CHARS[pinIndex (asU8 c)]? = some c := by
  have hall : PIN_CHARS.all (fun c => pinIndex (asU8 c) < 32 ∧
      PIN_CHARS[pinIndex (asU8 c)]? = some c) = true := by decide +kernel
  exact of_decide_eq_true (List.all_eq_true.1 hall c h)

/-- Characters of a PIN with the same index are the same. -/
lemma pinIndex_inj {c d : Char} (hc : c ∈ PIN_CHARS) (hd : d ∈ PIN_CHARS)
    (h : pinIndex (asU8 c) = pinIndex (asU8 d)) : c = d := by
  have hc' := (pinIndex_spec hc).2
  rw [h, (pinIndex_spec hd).2] at hc'
  exact (Option.some.inj hc').symm

/-- The weighted sum of data characters. -/
def weight (data : List Char) : ℕ := weightedSum 0 (data.map asU8)

/-- Two check characters are the same if the sums agree modulo the size of the alphabet.

**Proof sketch.** The characters of the alphabet differ, so that equal ones have equal indices. -/
lemma pinCheck_eq_iff {data data' : List Char} :
    pinCheck data = pinCheck data' ↔ weight data % 32 = weight data' % 32 := by
  have hinj : ∀ i j : Fin 32, ALPHABET.getD i 0 = ALPHABET.getD j 0 → i = j := by decide +kernel
  constructor
  · intro h
    have hbyte : checkChar (data.map asU8) = checkChar (data'.map asU8) := by
      rw [← asU8_pinCheck, ← asU8_pinCheck, h]
    have := hinj ⟨weight data % 32, Nat.mod_lt _ (by decide)⟩
      ⟨weight data' % 32, Nat.mod_lt _ (by decide)⟩ hbyte
    exact congrArg Fin.val this
  · intro h
    have hbyte : checkChar (data.map asU8) = checkChar (data'.map asU8) := by
      change ALPHABET.getD (weight data % 32) 0 = ALPHABET.getD (weight data' % 32) 0
      rw [h]
    rw [pinCheck, pinCheck, hbyte]

/-- Another character at one place changes the sum by what it weighs there.

**Proof sketch.** By induction on the bytes: the changed one is the head, or it is in the rest,
whose weights begin one higher. -/
lemma weightedSum_set (bs : Bytes) (k i : ℕ) (b old : UInt8) (h : bs[i]? = some old) :
    weightedSum k (bs.set i b) + pinIndex old * (k + i + 1) =
      weightedSum k bs + pinIndex b * (k + i + 1) := by
  induction bs generalizing k i with
  | nil => cases h
  | cons c bs ih =>
    cases i with
    | zero =>
      obtain rfl : c = old := by simpa using h
      simp only [List.set_cons_zero, weightedSum, Nat.add_zero]
      omega
    | succ i =>
      have hrest := ih (k + 1) i (by simpa using h)
      rw [show k + 1 + i + 1 = k + (i + 1) + 1 by omega] at hrest
      simp only [List.set_cons_succ, weightedSum]
      omega

/-- The same of characters. -/
lemma weight_set {data : List Char} {i : ℕ} {c d : Char} (h : data[i]? = some d) :
    weight (data.set i c) + pinIndex (asU8 d) * (i + 1) =
      weight data + pinIndex (asU8 c) * (i + 1) := by
  have hset :=
    weightedSum_set (data.map asU8) 0 i (asU8 c) (asU8 d) (by rw [List.getElem?_map, h]; rfl)
  rwa [Nat.zero_add, ← List.map_set] at hset

/-- A text of the alphabet that ends with the check character of other data is rejected if their
sums differ.

**Proof sketch.** The text has the characters and the length of a PIN, so that only its last
character can be wrong. It is right exactly if the two sums agree. -/
lemma normalizePin_eq_none {data data' : List Char} (h : ∀ c ∈ data', c ∈ PIN_CHARS)
    (hlen : data'.length = PIN_DATA_LEN) :
    normalizePin (String.ofList (data' ++ [pinCheck data])) = none ↔
      weight data' % 32 ≠ weight data % 32 := by
  have hchars : ∀ c ∈ data' ++ [pinCheck data], c ∈ PIN_CHARS := by
    intro c hc
    rcases List.mem_append.1 hc with hc | hc
    · exact h c hc
    · exact List.mem_singleton.1 hc ▸ pinCheck_mem data
  have hlength : (data' ++ [pinCheck data]).length = PIN_LEN := by
    rw [List.length_append, hlen]
    rfl
  rw [Option.eq_none_iff_forall_ne_some]
  constructor
  · intro hnone heq
    exact hnone _ ((normalizePin_ofList hchars).2
      ⟨rfl, hlength, data', by rw [pinCheck_eq_iff.2 heq]⟩)
  · intro hne p hp
    obtain ⟨-, -, other, hother⟩ := (normalizePin_ofList hchars).1 hp
    obtain ⟨rfl, hcheck⟩ := List.append_inj' hother rfl
    exact hne (pinCheck_eq_iff.1 (by simpa using hcheck.symm))

/-- Whether a text is over the alphabet can be evaluated. -/
lemma alphabet_of_all {p : String} (h : (p.toList.all fun c => decide (c ∈ PIN_CHARS)) = true) :
    ∀ c ∈ p.toList, c ∈ PIN_CHARS :=
  fun c hc => of_decide_eq_true (List.all_eq_true.1 h c hc)

/-- **A typo that is not caught**: the second character weighs twice its place in the alphabet. -/
theorem checkChar_misses : CanonicalPin "00000000" ∧ 'G' ∈ PIN_CHARS ∧
    "00000000".toList[1]? = some '0' ∧ 'G' ≠ '0' ∧
    normalizePin (String.ofList ("00000000".toList.set 1 'G')) = some "0G000000" := by
  refine ⟨⟨rfl, alphabet_of_all (by decide +kernel), ⟨"0000000".toList, by decide +kernel⟩⟩,
    by decide +kernel, by decide +kernel, by decide, by decide +kernel⟩

/-- **Which typos are caught.** One other character is caught at the place of the check character,
and elsewhere unless it weighs the same there. Two different data characters that change places are
always caught.

**Proof sketch.** The check character is a weighted sum of the others modulo 32, so a change of one
character changes it by the difference times its weight. For a swap of neighbours the weights differ
by one, so the sum changes by the difference of the two, which is less than 32. -/
theorem checkChar_catches {p : String} (hp : CanonicalPin p) :
    (∀ i c d, c ∈ PIN_CHARS → p.toList[i]? = some d → c ≠ d →
      (normalizePin (String.ofList (p.toList.set i c)) = none ↔ i + 1 = PIN_LEN ∨
        pinIndex (asU8 c) * (i + 1) % ALPHABET.length ≠
          pinIndex (asU8 d) * (i + 1) % ALPHABET.length)) ∧
    ∀ i c d, i + 1 < PIN_DATA_LEN → p.toList[i]? = some c → p.toList[i + 1]? = some d → c ≠ d →
      normalizePin (String.ofList ((p.toList.set i d).set (i + 1) c)) = none := by
  obtain ⟨data, hdata⟩ := hp.check
  have hsize : ALPHABET.length = 32 := rfl
  have hlen : data.length = PIN_DATA_LEN := by
    have h := hp.length
    rw [hdata, List.length_append, List.length_singleton] at h
    exact Nat.succ.inj h
  have hchars : ∀ c ∈ data, c ∈ PIN_CHARS := fun c hc =>
    hp.alphabet c (hdata ▸ List.mem_append_left _ hc)
  -- a data character that is set stays one of the alphabet
  have hset : ∀ (l : List Char) i c, (∀ d ∈ l, d ∈ PIN_CHARS) → c ∈ PIN_CHARS →
      ∀ d ∈ l.set i c, d ∈ PIN_CHARS := fun l i c hl hc d hd =>
    (List.mem_or_eq_of_mem_set hd).elim (hl d) fun h => h ▸ hc
  rw [hdata]
  constructor
  · intro i c d hc hd hne
    by_cases hi : i < data.length
    · rw [List.getElem?_append_left hi] at hd
      rw [List.set_append_left _ _ hi,
        normalizePin_eq_none (hset data i c hchars hc) (by rw [List.length_set, hlen]), hsize]
      have hsum := weight_set (c := c) hd
      have hplace : i + 1 ≠ PIN_LEN := by
        rw [hlen] at hi
        have : PIN_LEN = PIN_DATA_LEN + 1 := rfl
        omega
      simp only [hplace, false_or]
      omega
    · have hi' : i = data.length := by
        have := (List.getElem?_eq_some_iff.1 hd).1
        rw [List.length_append, List.length_singleton] at this
        omega
      subst hi'
      obtain rfl : d = pinCheck data := by simpa using hd.symm
      have hnone : normalizePin (String.ofList (data ++ [c])) = none := by
        rw [Option.eq_none_iff_forall_ne_some]
        intro q hq
        have hall : ∀ e ∈ data ++ [c], e ∈ PIN_CHARS := by
          intro e he
          rcases List.mem_append.1 he with he | he
          · exact hchars e he
          · exact List.mem_singleton.1 he ▸ hc
        obtain ⟨-, -, other, hother⟩ := (normalizePin_ofList hall).1 hq
        obtain ⟨rfl, hcheck⟩ := List.append_inj' hother rfl
        exact hne (by simpa using hcheck)
      rw [List.set_append_right _ _ (Nat.le_refl _), Nat.sub_self, List.set_cons_zero]
      exact ⟨fun _ => Or.inl (by rw [hlen]; rfl), fun _ => hnone⟩
  · intro i c d hi hc hd hne
    have hi' : i + 1 < data.length := hlen ▸ hi
    rw [List.getElem?_append_left (by omega)] at hc
    rw [List.getElem?_append_left hi'] at hd
    have hcmem := hchars c (List.mem_of_getElem? hc)
    have hdmem := hchars d (List.mem_of_getElem? hd)
    have hd' : (data.set i d)[i + 1]? = some d := by
      rw [List.getElem?_set_ne (by omega), hd]
    rw [List.set_append_left _ _ (by omega), List.set_append_left _ _ (by rwa [List.length_set]),
      normalizePin_eq_none (hset _ _ _ (hset data i d hchars hdmem) hcmem)
        (by rw [List.length_set, List.length_set, hlen])]
    have hfirst := weight_set (c := d) hc
    have hsecond := weight_set (c := c) hd'
    have hplaces : pinIndex (asU8 c) ≠ pinIndex (asU8 d) :=
        fun h => hne (pinIndex_inj hcmem hdmem h)
    have hclt := (pinIndex_spec hcmem).1
    have hdlt := (pinIndex_spec hdmem).1
    -- the two weights are neighbours, so the sum changes by the difference of the places
    rw [Nat.mul_succ _ (i + 1), Nat.mul_succ _ (i + 1)] at hsecond
    omega

/-- In one PIN, a typo in the first character and an exchange of the first two are caught. -/
theorem checkChar_catches_sample : CanonicalPin "12000005" ∧
    normalizePin (String.ofList ("12000005".toList.set 0 '3')) = none ∧
    normalizePin (String.ofList (("12000005".toList.set 0 '2').set 1 '1')) = none := by
  have hp : CanonicalPin "12000005" :=
    ⟨rfl, alphabet_of_all (by decide +kernel), ⟨"1200000".toList, by decide +kernel⟩⟩
  obtain ⟨htypo, hswap⟩ := checkChar_catches hp
  exact ⟨hp, (htypo 0 '3' '1' (by decide +kernel) (by decide +kernel) (by decide)).2
      (Or.inr (by decide +kernel)),
    hswap 0 '1' '2' (by decide) (by decide +kernel) (by decide +kernel) (by decide)⟩

end Duocb
