import Mathlib.Data.List.AList
import Duocb.Card
import Duocb.Framing.Objects

set_option relaxedAutoImplicit false
set_option autoImplicit false

/-!
# Attributes in a TXT record

The attributes of a DNS-SD service stand in its TXT record as strings `key=value`, each behind one
byte with its length. They are written one after the other, and read by a loop over the bytes of a
record that anyone on the network may have sent.

## Main definitions

* `Duocb.pushTxt`, `Duocb.pushAll` — what is written for one attribute, and for several.
* `Duocb.parseTxt` — the attributes of a record.
* `Duocb.Attributes` — attributes that a record can carry.
* `Duocb.TxtParts` — the strings of a record, and the bytes behind the last of them.

## Main results

* `Duocb.parseTxt_spec` — attributes are read back from the record that was written for them, and
  of any other bytes the strings are read that are all there.
-/

namespace Duocb

/-- The attributes that were read from a record. A key has one value. -/
abbrev TxtMap : Type := AList fun _ : String => String

/-! ## Writing -/

/-- A string of a record, behind its length. -/
def txtString (s : Bytes) : Bytes := UInt8.ofNat s.length :: s

/-- One length-prefixed `key=value` string in TXT wire format, at the end of `buf`. -/
def pushTxt (buf : Bytes) (key value : String) : Except Error Bytes :=
  let entry := key ++ "=" ++ value
  if entry.utf8ByteSize < 2 ^ 8 ∧ 0 < entry.utf8ByteSize then
    .ok (buf ++ txtString (utf8 entry))
  else .error (.msg "rendezvous record does not fit a TXT attribute")

/-- Several of them, one after the other. -/
def pushAll (buf : Bytes) (entries : List (String × String)) : Except Error Bytes :=
  entries.foldlM (fun buf e => pushTxt buf e.1 e.2) buf

/-! ## Reading -/

/-- Split a byte string at `mid`, which must not lie behind its end: there `split_at` panics. -/
def splitAt? (mid : ℕ) (bs : Bytes) : Option (Bytes × Bytes) :=
  if mid ≤ bs.length then some (bs.take mid, bs.drop mid) else none

/-- What a string adds to the attributes: nothing, unless it is UTF-8 and has a `=` in it. The text
is split at the first one, and a key that comes again gets the later value. -/
def insertEntry (map : TxtMap) (entry : Bytes) : TxtMap :=
  match Serde.ofUtf8 entry with
  | none => map
  | some entry =>
    match splitOnce '=' entry with
    | none => map
    | some (key, value) => map.insert key value

/-- The two parts of a byte string are no longer than the whole. -/
lemma length_of_splitAt? {mid : ℕ} {bs entry tail : Bytes}
    (h : splitAt? mid bs = some (entry, tail)) : tail.length ≤ bs.length := by
  unfold splitAt? at h
  split at h
  · cases h
    simp
  · cases h

/-- The loop of `parseTxt`: the attributes so far, and the bytes to come. `none` is a panic. A
length of zero, or one that is longer than the rest, ends the loop with what there is. -/
def parseTxtFrom (map : TxtMap) : Bytes → Option TxtMap
  | [] => some map
  | len :: rest =>
    if len = 0 ∨ rest.length < len.toNat then some map
    else match _h : splitAt? len.toNat rest with
      | none => none
      | some (entry, tail) => parseTxtFrom (insertEntry map entry) tail
termination_by data => data.length
decreasing_by
  have := length_of_splitAt? _h
  simp only [List.length_cons]
  omega

/-- Decode TXT wire format: length-prefixed `key=value` strings. -/
def parseTxt (data : Bytes) : Option TxtMap := parseTxtFrom ∅ data

/-! ## What is in a record -/

/-- Bytes at which the loop stops: none, no length, or a length that overruns what follows it. -/
def Stops (rest : Bytes) : Prop :=
  ∀ len more, rest = len :: more → len = 0 ∨ more.length < len.toNat

/-- The strings of a record and what is left behind them. -/
structure TxtParts (data : Bytes) (strings : List Bytes) (rest : Bytes) : Prop where
  data_eq : data = (strings.map txtString).flatten ++ rest
  short : ∀ s ∈ strings, 0 < s.length ∧ s.length < 2 ^ 8
  stops : Stops rest

/-- **A string is read back from its bytes.** The loop takes it off the front of a record, whatever
stands behind it.

**Proof sketch.** The length in front is that of the string and not zero, so that the loop cuts the
string off and goes on behind it. -/
lemma parseTxtFrom_txtString {s : Bytes} (hpos : 0 < s.length) (hshort : s.length < 2 ^ 8)
    (map : TxtMap) (more : Bytes) :
    parseTxtFrom map (txtString s ++ more) = parseTxtFrom (insertEntry map s) more := by
  have hlen : (UInt8.ofNat s.length).toNat = s.length := UInt8.toNat_ofNat_of_lt hshort
  have hne : UInt8.ofNat s.length ≠ 0 := by
    intro h
    rw [h] at hlen
    exact absurd hlen.symm (Nat.pos_iff_ne_zero.1 hpos)
  have hsplit : splitAt? s.length (s ++ more) = some (s, more) := by
    rw [splitAt?, if_pos (by simp), List.take_left, List.drop_left]
  rw [txtString, List.cons_append, parseTxtFrom, hlen, if_neg (by simp [hne])]
  split
  · rename_i h
    rw [hsplit] at h
    cases h
  · rename_i entry tail h
    rw [hsplit] at h
    cases h
    rfl

/-- The loop ends where there is no further string. -/
lemma parseTxtFrom_of_stops {rest : Bytes} (h : Stops rest) (map : TxtMap) :
    parseTxtFrom map rest = some map := by
  cases rest with
  | nil => rw [parseTxtFrom]
  | cons len more => rw [parseTxtFrom, if_pos (h len more rfl)]

/-- The attributes of a record are those of its strings, and reading them does not panic. -/
lemma TxtParts.parseTxtFrom_eq {data rest : Bytes} {strings : List Bytes}
    (h : TxtParts data strings rest) (map : TxtMap) :
    parseTxtFrom map data = some (strings.foldl insertEntry map) := by
  obtain ⟨rfl, hshort, hstops⟩ := h
  induction strings generalizing map with
  | nil => exact parseTxtFrom_of_stops hstops map
  | cons s strings ih =>
    obtain ⟨hpos, hlt⟩ := hshort s (by simp)
    rw [List.map_cons, List.flatten_cons, List.append_assoc,
      parseTxtFrom_txtString hpos hlt, List.foldl_cons]
    exact ih _ (fun t ht => hshort t (by simp [ht]))

/-- Any bytes are strings, and a rest at which the loop ends.

**Proof sketch.** Induction on the number of bytes. If the loop does not end at once, the first
byte is a length that what follows it has, so a string stands there, and what is behind the string
is shorter. -/
lemma exists_txtParts (data : Bytes) : ∃ strings rest, TxtParts data strings rest := by
  induction hn : data.length using Nat.strong_induction_on generalizing data with
  | _ n ih =>
    by_cases hstops : Stops data
    · exact ⟨[], data, ⟨rfl, by simp, hstops⟩⟩
    · simp only [Stops, not_forall, not_or, not_lt] at hstops
      obtain ⟨len, more, rfl, hne, hle⟩ := hstops
      have hlen : (more.take len.toNat).length = len.toNat := List.length_take_of_le hle
      have hpos : 0 < len.toNat := by
        rw [Nat.pos_iff_ne_zero, ne_eq, ← UInt8.toNat_zero, UInt8.toNat_inj]
        exact hne
      obtain ⟨strings, rest, hdata, hshort, hstops⟩ :=
        ih (more.drop len.toNat).length (by simp at hn ⊢; omega) _ rfl
      refine ⟨more.take len.toNat :: strings, rest, ?_, ?_, hstops⟩
      · rw [List.map_cons, List.flatten_cons, List.append_assoc, ← hdata, txtString, hlen,
          UInt8.ofNat_toNat, List.cons_append, List.take_append_drop]
      · intro s hs
        rcases List.mem_cons.1 hs with rfl | hs
        · rw [hlen]
          exact ⟨hpos, len.toNat_lt⟩
        · exact hshort s hs

/-! ## The round trip -/

/-- Attributes that a record can carry: no key twice, no `=` in a key, and `key=value` no longer
than a byte can say. -/
structure Attributes (entries : List (String × String)) : Prop where
  nodup : (entries.map Prod.fst).Nodup
  key : ∀ e ∈ entries, '=' ∉ e.1.toList
  short : ∀ e ∈ entries, (e.1 ++ "=" ++ e.2).utf8ByteSize ≤ 255

/-- The bytes of an attribute. -/
def entryBytes (e : String × String) : Bytes := utf8 (e.1 ++ "=" ++ e.2)

/-- An entry has at least its separator. -/
lemma entryBytes_pos (e : String × String) : 0 < (entryBytes e).length := by
  simp only [entryBytes, length_utf8, String.utf8ByteSize_append]
  have : "=".utf8ByteSize = 1 := by decide
  omega

/-- An entry of at most 255 bytes is pushed behind the others, with its length. -/
lemma pushTxt_eq_ok {buf : Bytes} {e : String × String}
    (h : (e.1 ++ "=" ++ e.2).utf8ByteSize ≤ 255) :
    pushTxt buf e.1 e.2 = .ok (buf ++ txtString (entryBytes e)) := by
  have hpos := entryBytes_pos e
  rw [entryBytes, length_utf8] at hpos
  exact if_pos ⟨by omega, hpos⟩

/-- Attributes that fit are written one after the other. -/
lemma pushAll_eq_ok {entries : List (String × String)}
    (h : ∀ e ∈ entries, (e.1 ++ "=" ++ e.2).utf8ByteSize ≤ 255) (buf : Bytes) :
    pushAll buf entries = .ok (buf ++ ((entries.map entryBytes).map txtString).flatten) := by
  induction entries generalizing buf with
  | nil => simp [pushAll, pure, Except.pure]
  | cons e entries ih =>
    have hrest := ih (fun e' he' => h e' (by simp [he'])) (buf ++ txtString (entryBytes e))
    unfold pushAll at hrest ⊢
    rw [List.foldlM_cons, pushTxt_eq_ok (h e (by simp))]
    simp only [bind, Except.bind, hrest, List.map_cons, List.flatten_cons, List.append_assoc]

/-- An attribute is split at the `=` behind its key, whatever its value is. -/
lemma insertEntry_entryBytes {e : String × String} (h : '=' ∉ e.1.toList) (map : TxtMap) :
    insertEntry map (entryBytes e) = map.insert e.1 e.2 := by
  have hsplit : splitOnce '=' (e.1 ++ "=" ++ e.2) = some (e.1, e.2) := splitOnce_append h
  simp only [insertEntry, entryBytes, Serde.ofUtf8_utf8, hsplit]

/-- Attributes with different keys do not overwrite each other, and overwrite nothing else.

**Proof sketch.** By induction on the attributes. The first key is not among the later ones, so that
its value is not overwritten. -/
lemma lookup_foldl_insertEntry {entries : List (String × String)} (h : Attributes entries)
    (map : TxtMap) (key value : String) :
    ((entries.map entryBytes).foldl insertEntry map).lookup key = some value ↔
      (key, value) ∈ entries ∨ key ∉ entries.map Prod.fst ∧ map.lookup key = some value := by
  induction entries generalizing map with
  | nil => simp
  | cons e entries ih =>
    obtain ⟨hnodup, hkey, hshort⟩ := h
    rw [List.map_cons, List.nodup_cons] at hnodup
    have hrest : Attributes entries := ⟨hnodup.2, fun e' he' => hkey e' (by simp [he']),
      fun e' he' => hshort e' (by simp [he'])⟩
    rw [List.map_cons, List.foldl_cons, insertEntry_entryBytes (hkey e (by simp)), ih hrest]
    by_cases hk : key = e.1
    · subst hk
      have hnot : (e.1, value) ∉ entries := by
        intro hmem
        exact hnodup.1 (List.mem_map.2 ⟨_, hmem, rfl⟩)
      simp [hnot, hnodup.1, Prod.ext_iff, eq_comm]
    · simp [AList.lookup_insert_ne hk, hk, Prod.ext_iff]

/-- **A record carries its attributes.** Attributes that a record can carry are read back from the
record that was written for them. From any other bytes, reading does not panic: the strings that
are all there are taken in turn, those that are not UTF-8 or have no `=` are skipped, and at an
empty string or a length that overruns the data the rest is left alone.

**Proof sketch.** The strings of the record are the entries, each behind its length, and are cut off
one after the other until nothing is left. Any other record is cut as long as its lengths allow, and
the strings that were cut off are inserted in their order. -/
theorem parseTxt_spec :
    (∀ entries, Attributes entries → ∃ record map, pushAll [] entries = .ok record ∧
      parseTxt record = some map ∧
      ∀ key value, map.lookup key = some value ↔ (key, value) ∈ entries) ∧
    ∀ data, ∃ strings rest, TxtParts data strings rest ∧
      parseTxt data = some (strings.foldl insertEntry ∅) := by
  constructor
  · intro entries h
    have hparts : TxtParts ((entries.map entryBytes).map txtString).flatten
        (entries.map entryBytes) [] := by
      refine ⟨by simp, fun s hs => ?_, by simp [Stops]⟩
      obtain ⟨e, he, rfl⟩ := List.mem_map.1 hs
      have hshort := h.short e he
      refine ⟨entryBytes_pos e, ?_⟩
      rw [entryBytes, length_utf8]
      omega
    refine ⟨_, _, pushAll_eq_ok h.short [], hparts.parseTxtFrom_eq ∅, fun key value => ?_⟩
    rw [lookup_foldl_insertEntry h]
    simp
  · intro data
    obtain ⟨strings, rest, hparts⟩ := exists_txtParts data
    exact ⟨strings, rest, hparts, hparts.parseTxtFrom_eq ∅⟩

/-- A value may have a `=` in it: only the first one of a string ends the key. -/
theorem parseTxt_spec_value : ∃ record map,
    pushAll [] [("e", "endpoint=="), ("p6", "4433")] = .ok record ∧ parseTxt record = some map ∧
      ∀ key value, map.lookup key = some value ↔
        (key, value) ∈ [("e", "endpoint=="), ("p6", "4433")] :=
  parseTxt_spec.1 _ ⟨by decide, by decide, by decide⟩

end Duocb
