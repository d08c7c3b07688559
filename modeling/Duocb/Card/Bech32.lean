import Duocb.Card
import Duocb.Library.Digits

set_option relaxedAutoImplicit false
set_option autoImplicit false

/-!
# Keys in bech32

The texts of keys are the bech32 library's: a tag that says what the key is, the key in groups of
five bits, one character a group, and six characters that check them. This is that library, as far
as keys need it, so that the examples of this development have the texts that users see.

A private key is 32 bytes, and its public key a point of a curve. The model never computes on the
curve, so here both have the same bytes.

## Main definitions

* `Duocb.Bech32.polymod`, `Duocb.Bech32.checksum` — the code that checks a text.
* `Duocb.Bech32.encode`, `Duocb.Bech32.decode` — a key as a text with a tag, and back.
* `Duocb.Bech32.standard` — the library.

## Main results

* `Duocb.Bech32.decode_encode` — a key is read back from its text.
* `Duocb.Bech32.standard_lawful` — the library keeps its promises.
-/

namespace Duocb.Bech32

/-! ## The code -/

/-- The characters that stand for the groups of five bits. -/
def CHARSET : List Char := "qpzry9x8gf2tvdw0s3jn54khce6mua7l".toList

/-- What each of the five top bits of the running code is folded back with. -/
def GENERATOR : List ℕ := [0x3b6a57b2, 0x26508e6d, 0x1ea119fa, 0x3d4233dd, 0x2a1462b3]

/-- Take one more group into the running code, which has 30 bits. -/
def polymodStep (code group : ℕ) : ℕ :=
  let top := code >>> 25
  GENERATOR.zipIdx.foldl (fun acc g => if top.testBit g.2 then acc ^^^ g.1 else acc)
    (((code &&& 0x1ffffff) <<< 5) ^^^ group)

/-- The code of a list of groups. -/
def polymod (groups : List ℕ) : ℕ := groups.foldl polymodStep 1

/-- The groups that a tag is checked as: the high bits of its characters, and the low ones. -/
def hrpExpand (hrp : String) : List ℕ :=
  hrp.toList.map (fun c => c.toNat >>> 5) ++ 0 :: hrp.toList.map fun c => c.toNat &&& 31

/-- The six groups that check a tag and the groups after it. -/
def checksum (hrp : String) (groups : List ℕ) : List ℕ :=
  (Digits.fixed 32 6 (polymod (hrpExpand hrp ++ groups ++ List.replicate 6 0) ^^^ 1)).reverse

/-! ## Groups -/

/-- The 256 bits of a key in groups of five, highest first; the last group has four zeros. -/
def toGroups (key : Bytes) : List ℕ :=
  (Digits.fixed 32 52 (16 * Nat.ofDigits 256 (key.map UInt8.toNat).reverse)).reverse

/-- The key in 52 groups whose last four bits are zero. -/
def fromGroups (groups : List ℕ) : Option Bytes :=
  let n := Nat.ofDigits 32 groups.reverse
  if groups.length = 52 ∧ n % 16 = 0 then
    some ((Digits.fixed 256 32 (n / 16)).reverse.map UInt8.ofNat)
  else none

/-- A group is five bits. -/
lemma lt_of_mem_toGroups {key : Bytes} {g : ℕ} (h : g ∈ toGroups key) : g < 32 :=
  Digits.lt_of_mem_fixed (by decide) (List.mem_reverse.1 h)

/-- A group of a checksum is five bits. -/
lemma lt_of_mem_checksum {hrp : String} {groups : List ℕ} {g : ℕ} (h : g ∈ checksum hrp groups) :
    g < 32 :=
  Digits.lt_of_mem_fixed (by decide) (List.mem_reverse.1 h)

/-- **A key is read back from its groups.**

**Proof sketch.** The groups are the 52 digits to base 32 of sixteen times the number whose 32
digits to base 256 are the bytes. Both numbers of digits are enough, so each number is read back
from its digits, and the bytes from theirs. -/
theorem fromGroups_toGroups {key : Bytes} (h : key.length = 32) :
    fromGroups (toGroups key) = some key := by
  have hbytes : ∀ d ∈ (key.map UInt8.toNat).reverse, d < 256 := by
    intro d hd
    obtain ⟨b, -, rfl⟩ := List.mem_map.1 (List.mem_reverse.1 hd)
    exact b.toNat_lt
  have hcount : (key.map UInt8.toNat).reverse.length = 32 := by
    rw [List.length_reverse, List.length_map, h]
  have hlt := Nat.ofDigits_lt_base_pow_length (by decide) hbytes
  rw [hcount] at hlt
  have hgroups : Nat.ofDigits 32 (toGroups key).reverse =
      16 * Nat.ofDigits 256 (key.map UInt8.toNat).reverse := by
    rw [toGroups, List.reverse_reverse]
    exact Digits.ofDigits_fixed (by omega)
  have hback := Digits.fixed_ofDigits hbytes
  rw [hcount] at hback
  have hlength : (toGroups key).length = 52 := by
    rw [toGroups, List.length_reverse, Digits.length_fixed]
  rw [fromGroups, hgroups, if_pos ⟨hlength, Nat.mul_mod_right 16 _⟩,
    Nat.mul_div_cancel_left _ (by decide), hback, List.reverse_reverse, List.map_map]
  have hid : (UInt8.ofNat ∘ UInt8.toNat) = id := funext fun b => UInt8.ofNat_toNat
  rw [hid, List.map_id]

/-! ## Texts -/

/-- The character of a group. -/
def symbol (g : ℕ) : Char := CHARSET.getD g 'q'

/-- The group of a character. -/
def value (c : Char) : Option ℕ := CHARSET.idxOf? c

/-- A group is read back from its character, which is no white space. -/
lemma symbol_spec {g : ℕ} (h : g < 32) :
    value (symbol g) = some g ∧ isWhitespace (symbol g) = false :=
  (show ∀ g : Fin 32, value (symbol g) = some g.val ∧ isWhitespace (symbol g) = false by
    decide +kernel) ⟨g, h⟩

/-- Groups are read back from their characters. -/
lemma mapM_symbol {groups : List ℕ} (h : ∀ g ∈ groups, g < 32) :
    (groups.map symbol).mapM value = some groups := by
  induction groups with
  | nil => rfl
  | cons g groups ih =>
    have hg := (symbol_spec (h g List.mem_cons_self)).1
    have hrest := ih fun x hx => h x (List.mem_cons_of_mem _ hx)
    rw [List.map_cons, List.mapM_cons, hg, hrest]
    rfl

/-- A key as a text: the tag, the separator, the groups and the checksum. -/
def encode (hrp : String) (key : Bytes) : String :=
  hrp ++ "1" ++ String.ofList ((toGroups key ++ checksum hrp (toGroups key)).map symbol)

/-- The key in a text with a tag, if its checksum is right. -/
def decode (hrp s : String) : Option Bytes := do
  let tag := (hrp ++ "1").toList
  let groups ← if tag.isPrefixOf s.toList then (s.toList.drop tag.length).mapM value else none
  let data := groups.take (groups.length - 6)
  if groups.drop (groups.length - 6) = checksum hrp data then fromGroups data else none

/-- The characters of a key: those of the tag, and those of its groups and of their checksum. -/
lemma toList_encode (hrp : String) (key : Bytes) : (encode hrp key).toList =
    (hrp ++ "1").toList ++ (toGroups key ++ checksum hrp (toGroups key)).map symbol := by
  rw [encode, String.toList_append, String.toList_ofList]

/-- All groups of a text are five bits. -/
lemma lt_of_mem {hrp : String} {key : Bytes} {g : ℕ}
    (h : g ∈ toGroups key ++ checksum hrp (toGroups key)) : g < 32 := by
  rcases List.mem_append.1 h with h | h
  · exact lt_of_mem_toGroups h
  · exact lt_of_mem_checksum h

/-- **A key is read back from its text.**

**Proof sketch.** The prefix is dropped, every symbol is read back as its group, and the checksum is
computed again from the groups. The groups are the digits of the bytes, which are read back as
numbers are. -/
theorem decode_encode (hrp : String) {key : Bytes} (h : key.length = 32) :
    decode hrp (encode hrp key) = some key := by
  have hread := mapM_symbol fun g (hg : g ∈ toGroups key ++ checksum hrp (toGroups key)) =>
    lt_of_mem hg
  have hcheck : (checksum hrp (toGroups key)).length = 6 := by
    rw [checksum, List.length_reverse, Digits.length_fixed]
  have hlength : (toGroups key ++ checksum hrp (toGroups key)).length - 6 =
      (toGroups key).length := by
    rw [List.length_append, hcheck, Nat.add_sub_cancel]
  rw [decode, toList_encode, if_pos (List.isPrefixOf_iff_prefix.2 (List.prefix_append _ _))]
  simp only [List.drop_left, hread, Option.bind_eq_bind, Option.bind_some, hlength,
    List.take_left, fromGroups_toGroups h, if_true]

/-! ## The library -/

/-- The bech32 forms of keys: `nsec` for private keys, `npub` for public ones. A key is 32 bytes; a
text with another prefix, a wrong checksum or another length is refused. -/
def standard : Bech32 where
  keysParse s := match decode "nsec" s with
    | none => .error (.msg "Invalid secret key")
    | some bytes =>
      if h : bytes.length = 32 then .ok ⟨⟨bytes, h⟩⟩ else .error (.msg "Invalid secret key")
  toNsec i := encode "nsec" i.publicKey.bytes
  npub k := encode "npub" k.bytes

/-- **The library keeps its promises.**

**Proof sketch.** Keys have 32 bytes, so each text is read back. The symbols are visible, and the
two prefixes differ from each other. -/
theorem standard_lawful : standard.Lawful where
  nsec i := by
    simp only [standard, decode_encode "nsec" i.publicKey.length_eq, i.publicKey.length_eq,
      dif_pos]
  nsec_form i := by
    have htext : (standard.toNsec i).toList = _ := toList_encode "nsec" i.publicKey.bytes
    have hnsec : ("nsec" ++ "1").toList = "nsec1".toList := by decide
    rw [htext, hnsec]
    refine ⟨List.prefix_append _ _, fun c hc => ?_⟩
    rcases List.mem_append.1 hc with hc | hc
    · have hall : "nsec1".toList.all (fun c => !isWhitespace c) = true := by decide +kernel
      simpa using List.all_eq_true.1 hall c hc
    · obtain ⟨g, hg, rfl⟩ := List.mem_map.1 hc
      exact (symbol_spec (lt_of_mem hg)).2
  npub_inj k l h := by
    have hsame : decode "npub" (encode "npub" k.bytes) = decode "npub" (encode "npub" l.bytes) :=
      congrArg (decode "npub") h
    rw [decode_encode "npub" k.length_eq, decode_encode "npub" l.length_eq] at hsame
    exact PublicKey.ext (Option.some.inj hsame)
  npub_form k := by
    have htext : (standard.npub k).toList = _ := toList_encode "npub" k.bytes
    have hnpub : ("npub" ++ "1").toList = "npub1".toList := by decide
    rw [htext, hnpub]
    exact List.prefix_append _ _

end Duocb.Bech32
