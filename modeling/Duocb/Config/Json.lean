import Duocb.Config
import Duocb.Protocol.Json

set_option relaxedAutoImplicit false
set_option autoImplicit false

/-!
# The JSON of the configuration

The configuration file is written for people to read: one field a line, and one trusted card a line.
It is read as any JSON is, whatever white space stands between its parts, and fields that the
configuration does not have are refused.

The reader takes the white space out that stands outside of texts, and reads the compact object that
is left.

## Main definitions

* `Duocb.Frame.pretty` — an object over several lines.
* `Duocb.Json.compact` — a JSON text without the white space between its parts.
* `Duocb.ConfigFile.text`, `Duocb.ConfigJson.pretty` — the text of a file, and the library.

## Main results

* `Duocb.Json.compacts_pretty` — an object over several lines is the compact one with white space.
* `Duocb.ConfigJson.pretty_lawful` — a file reads back from its text.
-/

namespace Duocb

/-! ## Objects over several lines -/

/-- Texts with a comma after each but the last, and each on a line of its own. -/
def lineSep (indent : String) : List String → String
  | [] => ""
  | [s] => s
  | s :: t :: rest => s ++ ",\n" ++ indent ++ lineSep indent (t :: rest)

/-- The value of a field as it is written for people; only a list takes several lines. -/
def Value.pretty : Value → String
  | .strs (x :: xs) => "[\n    " ++ lineSep "    " ((x :: xs).map jsonString) ++ "\n  ]"
  | v => v.render

/-- A field as it is written for people. -/
def prettyField (f : String × Value) : String := jsonString f.1 ++ ": " ++ f.2.pretty

/-- The JSON of an object as it is written for people. -/
def Frame.pretty (fs : Frame) : String :=
  "\x7b\n  " ++ lineSep "  " (fs.map prettyField) ++ "\n\x7d"

namespace Json

/-- A character that may stand between the parts of a JSON text. -/
def isSpace (c : Char) : Bool := c = ' ' || c = '\n' || c = '\r' || c = '\t'

/-- A JSON text without the white space between its parts, from within a text in quotes or from
outside of one. -/
def compact : Bool → List Char → List Char
  | _, [] => []
  | true, '\\' :: c :: cs => '\\' :: c :: compact true cs
  | true, c :: cs => c :: compact (c ≠ '"') cs
  | false, c :: cs => if isSpace c then compact false cs else c :: compact (c = '"') cs

/-- A text outside of quotes is another one with white space between its parts. -/
def Compacts (spaced plain : String) : Prop :=
  ∀ rest, compact false (spaced.toList ++ rest) = plain.toList ++ compact false rest

/-- Texts are put together part by part. -/
lemma Compacts.append {a b c d : String} (h : Compacts a b) (h' : Compacts c d) :
    Compacts (a ++ c) (b ++ d) := by
  intro rest
  rw [String.toList_append, String.toList_append, List.append_assoc, h, h', List.append_assoc]

/-- A character in quotes that is neither a quote nor a backslash is left as it is. -/
lemma compact_cons {c : Char} (hquote : c ≠ '"') (hback : c ≠ '\\') (rest : List Char) :
    compact true (c :: rest) = c :: compact true rest := by
  rw [compact]
  · rw [decide_eq_true hquote]
  · exact fun _ _ h _ => hback h

/-- An escape is left as it is.

**Proof sketch.** By the branches of the escape: seven of them are computed, and the digits of a
number are no marks. Any other character is left as it is. -/
lemma compact_escapeChar (c : Char) (rest : List Char) :
    compact true (escapeChar c ++ rest) = escapeChar c ++ compact true rest := by
  unfold escapeChar
  split_ifs with hquote hback hn hr ht hb hf hsmall
  iterate 7 rfl
  · -- the digits of a code are neither quotes nor backslashes
    have digit : ∀ i : Fin 16, Nat.digitChar i ≠ '"' ∧ Nat.digitChar i ≠ '\\' := by decide
    have hlt : (UInt8.ofNat c.toNat).toNat < 256 := UInt8.toNat_lt _
    obtain ⟨hq, hs⟩ := digit ⟨(UInt8.ofNat c.toNat).toNat / 16, by omega⟩
    obtain ⟨hq', hs'⟩ := digit ⟨(UInt8.ofNat c.toNat).toNat % 16, by omega⟩
    have hopen : ∀ cs, compact true ('\\' :: 'u' :: '0' :: '0' :: cs) =
        '\\' :: 'u' :: '0' :: '0' :: compact true cs := fun _ => rfl
    simp only [hexByte, List.cons_append, List.nil_append, hopen, compact_cons hq hs,
      compact_cons hq' hs']
  · exact compact_cons hquote hback rest

/-- The text in quotes is left as it is, up to the closing quote. -/
lemma compact_escape (cs rest : List Char) :
    compact true (cs.flatMap escapeChar ++ '"' :: rest) =
      cs.flatMap escapeChar ++ '"' :: compact false rest := by
  induction cs with
  | nil => rfl
  | cons c cs ih => rw [List.flatMap_cons, List.append_assoc, compact_escapeChar, ih,
      List.append_assoc]

/-- A JSON string is left as it is. -/
lemma compacts_jsonString (s : String) : Compacts (jsonString s) (jsonString s) := by
  intro rest
  have hopen : ∀ cs, compact false ('"' :: cs) = '"' :: compact true cs := fun _ => rfl
  rw [toList_jsonString, List.cons_append, List.append_assoc, List.singleton_append, hopen,
    compact_escape, List.cons_append, List.append_assoc, List.singleton_append]

/-- A number is left as it is.

**Proof sketch.** Its characters are digits, which are neither blanks nor marks, so that each of
them is kept. -/
lemma compacts_toString (n : ℕ) : Compacts (toString n) (toString n) := by
  intro rest
  have hdigits : ∀ c ∈ Nat.toDigits 10 n, c.isDigit = true := fun c hc =>
    Nat.isDigit_of_mem_toDigits (by omega) (by omega) hc
  have hkept : ∀ ds : List Char, (∀ c ∈ ds, c.isDigit = true) →
      compact false (ds ++ rest) = ds ++ compact false rest := by
    intro ds
    induction ds with
    | nil => exact fun _ => rfl
    | cons d ds ih =>
      intro h
      have hd := h d List.mem_cons_self
      have hspace : isSpace d = false := by
        rw [isSpace, Bool.or_eq_false_iff, Bool.or_eq_false_iff, Bool.or_eq_false_iff]
        refine ⟨⟨⟨?_, ?_⟩, ?_⟩, ?_⟩
        all_goals
          rw [decide_eq_false_iff_not]
          rintro rfl
          exact absurd hd (by decide)
      have hquote : decide (d = '"') = false := by
        rw [decide_eq_false_iff_not]
        rintro rfl
        exact absurd hd (by decide)
      rw [List.cons_append, compact, hspace, hquote, ih fun c hc => h c (List.mem_cons_of_mem _ hc)]
      rfl
  rw [toList_toString, hkept _ hdigits]

/-- A list of texts with line breaks is one without.

**Proof sketch.** By induction on the list, with the separator between each two. -/
lemma compacts_lineSep {α : Type} {f g : α → String} (h : ∀ a, Compacts (f a) (g a))
    {indent : String} (hindent : Compacts indent "") (xs : List α) :
    Compacts (lineSep indent (xs.map f)) (commaSep (xs.map g)) := by
  have hcomma : Compacts (",\n" ++ indent) "," := by
    have hline : Compacts ",\n" "," := fun _ => rfl
    simpa using hline.append hindent
  induction xs with
  | nil => exact fun _ => rfl
  | cons x xs ih =>
    cases xs with
    | nil => exact h x
    | cons y ys =>
      have hpair := ((h x).append hcomma).append ih
      rw [← String.append_assoc] at hpair
      exact hpair

/-- The value of a field is left as it is, up to line breaks.

**Proof sketch.** By the kind of the value: a list is written over several lines, and all other
values on one. -/
lemma compacts_value (v : Value) : Compacts v.pretty v.render := by
  have hopen : Compacts "[\n    " "[" := fun _ => rfl
  have hclose : Compacts "\n  ]" "]" := fun _ => rfl
  cases v with
  | null => exact fun _ => rfl
  | bool b => cases b <;> exact fun _ => rfl
  | num n => exact compacts_toString n
  | str s => exact compacts_jsonString s
  | strs xs =>
    cases xs with
    | nil => exact fun _ => rfl
    | cons x xs =>
      exact (hopen.append (compacts_lineSep compacts_jsonString (fun _ => rfl) (x :: xs))).append
        hclose

/-- **An object over several lines** is the compact object with white space between its parts. -/
theorem compacts_pretty (fs : Frame) : Compacts fs.pretty fs.render := by
  have hopen : Compacts "\x7b\n  " "\x7b" := fun _ => rfl
  have hclose : Compacts "\n\x7d" "\x7d" := fun _ => rfl
  have hcolon : Compacts ": " ":" := fun _ => rfl
  have hfield : ∀ f, Compacts (prettyField f) (renderField f) := fun f =>
    ((compacts_jsonString f.1).append hcolon).append (compacts_value f.2)
  exact (hopen.append (compacts_lineSep hfield (fun _ => rfl) fs)).append hclose

/-- Read the text of an object, with white space or without. -/
def readSpaced (s : String) : Option Frame := readFrame (String.ofList (compact false s.toList))

/-- An object over several lines is read back. -/
lemma readSpaced_pretty (fs : Frame) : readSpaced fs.pretty = some fs := by
  have hcompact := compacts_pretty fs []
  rw [List.append_nil] at hcompact
  have hnil : compact false [] = [] := rfl
  rw [readSpaced, hcompact, hnil, List.append_nil, String.ofList_toList, readFrame_render]

end Json

/-! ## The configuration file -/

namespace ConfigFile

/-- A configuration file as an object. -/
def toFrame (c : ConfigFile) : Frame :=
  [("version", .num c.version), ("device_suffix", .str c.deviceSuffix),
    ("my_name", c.myName.elim .null .str), ("self_card", c.selfCard.elim .null .str),
    ("peers", .strs c.peers)]

/-- The text of a configuration file. -/
def text (c : ConfigFile) : String := c.toFrame.pretty

/-- The list of trusted cards, which may be missing. -/
def readPeers (fs : Frame) : Option (List String) :=
  match fs.filter fun f => f.1 = "peers" with
  | [] => some []
  | [(_, .strs xs)] => some xs
  | _ => none

/-- A configuration file from an object with its fields and no others. -/
def ofFrame (fs : Frame) : Option ConfigFile := do
  if fs.all fun f => f.1 ∈ ["version", "device_suffix", "my_name", "self_card", "peers"] then
    return ⟨← fs.uint 32 "version", ← fs.str "device_suffix", ← fs.optStr "my_name",
      ← fs.optStr "self_card", ← readPeers fs⟩
  else none

/-- A file is taken from its object, if its version has 32 bits. -/
lemma ofFrame_toFrame {c : ConfigFile} (h : c.version < 2 ^ 32) : ofFrame c.toFrame = some c := by
  obtain ⟨version, deviceSuffix, myName, selfCard, peers⟩ := c
  have hversion : version < 4294967296 := h
  cases myName <;> cases selfCard <;>
    simp [ofFrame, toFrame, readPeers, Frame.uint, Frame.str, Frame.optStr, Frame.field, hversion]

end ConfigFile

/-- The JSON library: it writes a file for people to read, and reads it with any white space. -/
def ConfigJson.pretty : ConfigJson where
  toJson c := if c.version < 2 ^ 32 then .ok c.text else .error (.msg "number out of range")
  fromJson s := match (Json.readSpaced s).bind ConfigFile.ofFrame with
    | some c => .ok c
    | none => .error (.msg "invalid config")

/-- What a file of this version is written as. -/
lemma ConfigJson.toJson_pretty {c : ConfigFile} (h : c.version < 2 ^ 32) :
    ConfigJson.pretty.toJson c = .ok c.text :=
  if_pos h

/-- **A file reads back from its text.** -/
theorem ConfigJson.pretty_lawful : ConfigJson.pretty.Lawful := by
  intro c s hs
  simp only [pretty] at hs ⊢
  split_ifs at hs with hversion
  obtain rfl := Except.ok.inj hs
  rw [ConfigFile.text, Json.readSpaced_pretty, Option.bind_some,
    ConfigFile.ofFrame_toFrame hversion]

end Duocb
