import Duocb.Protocol

set_option relaxedAutoImplicit false
set_option autoImplicit false

/-!
# Reading JSON back

The frames of the wire protocol are written as JSON objects. This reader takes the text of an object
apart again, so the text holds everything that was written into it, whatever had to be escaped.

It reads what the writer writes: no white space, and no character as a pair of surrogates.

## Main definitions

* `Duocb.Json.readChars`, `Duocb.Json.readNat` — the rest of a string, and a number.
* `Duocb.Json.readValue`, `Duocb.Json.readFrame` — a field value, and an object.

## Main results

* `Duocb.Json.readChars_escape` — a text is read back from its escaped form.
* `Duocb.Json.readFrame_render` — an object is read back from its text.
-/

namespace Duocb.Json

/-! ## Strings -/

/-- The character that an escape of one letter stands for. The slash may be written in this way too,
though nothing here writes it so. -/
def letterEscape (c : Char) : Option Char :=
  if c = '"' then some '"'
  else if c = '\\' then some '\\'
  else if c = '/' then some '/'
  else if c = 'n' then some '\n'
  else if c = 'r' then some '\r'
  else if c = 't' then some '\t'
  else if c = 'b' then some (Char.ofNat 8)
  else if c = 'f' then some (Char.ofNat 12)
  else none

/-- The character with a given hexadecimal code. -/
def hexEscape (a b c d : Char) : Option Char := do
  let n := 4096 * (← hexValue a) + 256 * (← hexValue b) + 16 * (← hexValue c) + (← hexValue d)
  if n.isValidChar then some (Char.ofNat n) else none

/-- Read a string from behind its opening quote, and leave what follows it. An escape is read as the
character that it stands for, and any other character as itself. -/
def readChars : List Char → Option (List Char × List Char)
  | [] => none
  | '"' :: rest => some ([], rest)
  | '\\' :: 'u' :: a :: b :: c :: d :: rest => do
    let e ← hexEscape a b c d
    let (cs, rest) ← readChars rest
    return (e :: cs, rest)
  | '\\' :: c :: rest => do
    let e ← letterEscape c
    let (cs, rest) ← readChars rest
    return (e :: cs, rest)
  | c :: rest => do
    let (cs, rest) ← readChars rest
    return (c :: cs, rest)

/-- A small code is read back from its four digits. -/
lemma hexEscape_hexByte {c : Char} (h : c.toNat < 32) :
    ∃ x y, hexByte (UInt8.ofNat c.toNat) = [x, y] ∧ hexEscape '0' '0' x y = some c := by
  refine ⟨_, _, rfl, ?_⟩
  have hn : (UInt8.ofNat c.toNat).toNat = c.toNat := by
    rw [UInt8.toNat_ofNat']
    omega
  have hzero : hexValue '0' = some 0 := by decide
  simp only [hexEscape, hn, hzero, hexValue_digitChar (show c.toNat / 16 < 16 by omega),
    hexValue_digitChar (show c.toNat % 16 < 16 by omega), Option.bind_eq_bind, Option.bind_some]
  have hcode : 4096 * 0 + 256 * 0 + 16 * (c.toNat / 16) + c.toNat % 16 = c.toNat := by omega
  rw [hcode, if_pos (Or.inl (by omega)), Char.ofNat_toNat]

/-- A character is read back from its escape.

**Proof sketch.** By the branches of the escape. Each of the letters is read as its character, and a
number of four digits as its own. -/
lemma readChars_escapeChar (c : Char) (tail : List Char) :
    readChars (escapeChar c ++ tail) = (readChars tail).map fun r => (c :: r.1, r.2) := by
  have hmap : ∀ e : Char, (do let (cs, rest) ← readChars tail; return (e :: cs, rest)) =
      (readChars tail).map fun r => (e :: r.1, r.2) := fun e => by
    cases readChars tail <;> rfl
  unfold escapeChar
  split_ifs with hquote hback hn hr ht hb hf hsmall
  · subst hquote; exact hmap _
  · subst hback; exact hmap _
  · subst hn; exact hmap _
  · subst hr; exact hmap _
  · subst ht; exact hmap _
  · rw [← Char.ofNat_toNat c, hb]; exact hmap _
  · rw [← Char.ofNat_toNat c, hf]; exact hmap _
  · obtain ⟨x, y, hxy, hread⟩ := hexEscape_hexByte hsmall
    rw [hxy]
    simp only [List.cons_append, List.nil_append, readChars, hread, Option.bind_eq_bind,
      Option.bind_some]
    exact hmap c
  · rw [List.singleton_append, readChars]
    · exact hmap c
    · exact fun h => hquote h
    · exact fun a b d e rest h _ => hback h
    · exact fun d rest h _ => hback h

/-- **A text is read back from its escaped form**, up to the closing quote. -/
theorem readChars_escape (cs rest : List Char) :
    readChars (cs.flatMap escapeChar ++ '"' :: rest) = some (cs, rest) := by
  induction cs with
  | nil => rfl
  | cons c cs ih =>
    rw [List.flatMap_cons, List.append_assoc, readChars_escapeChar, ih]
    rfl

/-- A JSON string is a quote, the escaped text, and a quote. -/
lemma toList_jsonString (s : String) :
    (jsonString s).toList = '"' :: (s.toList.flatMap escapeChar ++ ['"']) := by
  simp [jsonString, String.toList_append]

/-- A text is read back from its JSON string. -/
lemma readChars_jsonString (s : String) (rest : List Char) :
    ∃ body, (jsonString s).toList ++ rest = '"' :: body ∧
      readChars body = some (s.toList, rest) := by
  refine ⟨s.toList.flatMap escapeChar ++ '"' :: rest, ?_, readChars_escape _ _⟩
  rw [toList_jsonString, List.cons_append, List.append_assoc]
  rfl

/-! ## Numbers -/

/-- Read a number, and leave what follows its digits. -/
def readNat (cs : List Char) : Option (ℕ × List Char) :=
  if cs.takeWhile Char.isDigit = [] then none
  else some (Nat.ofDigitChars 10 (cs.takeWhile Char.isDigit) 0, cs.dropWhile Char.isDigit)

/-- A text does not go on with a digit. -/
def Stops (rest : List Char) : Prop := ∀ c ∈ rest.head?, c.isDigit = false

/-- The digits of a number. -/
lemma toList_toString (n : ℕ) : (toString n).toList = Nat.toDigits 10 n := Nat.toList_repr

/-- A number is read back from its digits.

**Proof sketch.** What follows is no digit, so that exactly the digits of the number are taken, and
they stand for it. -/
lemma readNat_toString (n : ℕ) {rest : List Char} (h : Stops rest) :
    readNat ((toString n).toList ++ rest) = some (n, rest) := by
  have hdigits : ∀ c ∈ Nat.toDigits 10 n, c.isDigit = true := fun c hc =>
    Nat.isDigit_of_mem_toDigits (by omega) (by omega) hc
  have htake : rest.takeWhile Char.isDigit = [] ∧ rest.dropWhile Char.isDigit = rest := by
    cases rest with
    | nil => exact ⟨rfl, rfl⟩
    | cons c cs =>
      have hc := h c rfl
      exact ⟨by rw [List.takeWhile_cons_of_neg (by simp [hc])],
        by rw [List.dropWhile_cons_of_neg (by simp [hc])]⟩
  rw [readNat, toList_toString, List.takeWhile_append_of_pos hdigits,
    List.dropWhile_append_of_pos hdigits, htake.1, htake.2, List.append_nil,
    if_neg Nat.toDigits_ne_nil, Nat.ofDigitChars_toDigits (by omega) (by omega)]

/-! ## Objects -/

/-- Read the rest of a list of texts, of at most a given length. The bound is the number of
characters that are left, which is never reached. -/
def readTexts : ℕ → List Char → Option (List String × List Char)
  | n + 1, '"' :: cs => do
    let (s, rest) ← readChars cs
    match rest with
    | ']' :: rest => return ([String.ofList s], rest)
    | ',' :: rest => do
      let (more, rest) ← readTexts n rest
      return (String.ofList s :: more, rest)
    | _ => none
  | _, _ => none

/-- Read a field value, and leave what follows it. The first character tells the kind of the value.
-/
def readValue : List Char → Option (Value × List Char)
  | 'n' :: 'u' :: 'l' :: 'l' :: rest => some (.null, rest)
  | 't' :: 'r' :: 'u' :: 'e' :: rest => some (.bool true, rest)
  | 'f' :: 'a' :: 'l' :: 's' :: 'e' :: rest => some (.bool false, rest)
  | '"' :: rest => (readChars rest).map fun r => (.str (String.ofList r.1), r.2)
  | '[' :: ']' :: rest => some (.strs [], rest)
  | '[' :: rest => (readTexts rest.length rest).map fun r => (.strs r.1, r.2)
  | cs => (readNat cs).map fun r => (.num r.1, r.2)

/-- Read the rest of an object of at most a given number of fields, up to the end of the text. The
fields are kept in the order in which they stand, and a repeated one is kept too. -/
def readFields : ℕ → List Char → Option Frame
  | n + 1, '"' :: cs => do
    match ← readChars cs with
    | (key, ':' :: cs) => do
      let (v, rest) ← readValue cs
      match rest with
      | ['\x7d'] => return [(String.ofList key, v)]
      | ',' :: rest => return (String.ofList key, v) :: (← readFields n rest)
      | _ => none
    | _ => none
  | _, _ => none

/-- Read the text of an object. -/
def readFrame (s : String) : Option Frame :=
  match s.toList with
  | ['\x7b', '\x7d'] => some []
  | '\x7b' :: cs => readFields cs.length cs
  | _ => none

/-- No text is written as nothing, -/
lemma jsonString_ne_empty (s : String) : jsonString s ≠ "" := fun h => by
  have hlist := congrArg String.toList h
  rw [toList_jsonString] at hlist
  cases hlist

/-- and no field is. -/
lemma renderField_ne_empty (f : String × Value) : renderField f ≠ "" := fun h => by
  have hlist := congrArg String.toList h
  simp [renderField, String.toList_append, toList_jsonString] at hlist

/-- A list of texts is read back.

**Proof sketch.** By induction on the list, with the end behind the last text and a comma behind
each other. -/
lemma readTexts_render {xs : List String} (hne : xs ≠ []) {n : ℕ} (hn : xs.length ≤ n)
    (rest : List Char) :
    readTexts n ((commaSep (xs.map jsonString)).toList ++ ']' :: rest) = some (xs, rest) := by
  induction xs generalizing n with
  | nil => exact absurd rfl hne
  | cons x xs ih =>
    obtain ⟨n, rfl⟩ : ∃ m, n = m + 1 := ⟨n - 1, by simp only [List.length_cons] at hn; omega⟩
    cases xs with
    | nil =>
      obtain ⟨body, hbody, hread⟩ := readChars_jsonString x (']' :: rest)
      simp only [List.map_cons, List.map_nil, commaSep, hbody, readTexts, hread,
        Option.bind_eq_bind, Option.bind_some, String.ofList_toList]
      rfl
    | cons y ys =>
      obtain ⟨body, hbody, hread⟩ := readChars_jsonString x
        (',' :: ((commaSep ((y :: ys).map jsonString)).toList ++ ']' :: rest))
      have htext : (commaSep ((x :: y :: ys).map jsonString)).toList ++ ']' :: rest =
          '"' :: body := by
        rw [← hbody]
        simp [commaSep, String.toList_append]
      have hmore := ih (by simp) (show (y :: ys).length ≤ n by
        simp only [List.length_cons] at hn ⊢; omega)
      rw [htext]
      simp only [readTexts, hread, Option.bind_eq_bind, Option.bind_some, hmore,
        String.ofList_toList]
      rfl

/-- There are no more texts than characters in a list of texts.

**Proof sketch.** By induction on the list: each text has a character at least. -/
lemma length_le_commaSep (xs : List String) (hxs : ∀ x ∈ xs, x ≠ "") :
    xs.length ≤ (commaSep xs).toList.length := by
  induction xs with
  | nil => simp
  | cons x xs ih =>
    have hx : 0 < x.toList.length := by
      rw [List.length_pos_iff, ne_eq, String.toList_eq_nil_iff]
      exact hxs x List.mem_cons_self
    have hrest := ih fun y hy => hxs y (List.mem_cons_of_mem _ hy)
    cases xs with
    | nil => simpa [commaSep] using Nat.succ_le_of_lt hx
    | cons y ys =>
      simp only [commaSep, String.toList_append, List.length_append, List.length_cons] at hrest ⊢
      omega

/-- **A field value is read back**, if it does not end in the middle of a number.

**Proof sketch.** By cases on the value. A number is read up to its last digit, which is where
`Stops` is used; a text and a list of texts end with their own delimiters. -/
lemma readValue_render (v : Value) {rest : List Char} (h : Stops rest) :
    readValue (v.render.toList ++ rest) = some (v, rest) := by
  cases v with
  | null => rfl
  | bool b => cases b <;> rfl
  | num n =>
    obtain ⟨d, ds, hds⟩ : ∃ d ds, (toString n).toList = d :: ds := by
      rw [toList_toString]
      exact List.exists_cons_of_ne_nil Nat.toDigits_ne_nil
    have hd : d.isDigit = true := by
      apply Nat.isDigit_of_mem_toDigits (b := 10) (n := n) (by omega) (by omega)
      rw [← toList_toString, hds]
      exact List.mem_cons_self
    have hread := readNat_toString n h
    rw [Value.render, hds, List.cons_append] at *
    unfold readValue
    split
    all_goals first
      | (rename_i heq; obtain ⟨rfl, -⟩ := List.cons.inj heq; exact absurd hd (by decide))
      | rw [hread]; rfl
  | str s =>
    obtain ⟨body, hbody, hread⟩ := readChars_jsonString s rest
    simp only [Value.render, hbody, readValue, hread, Option.map_some, String.ofList_toList]
  | strs xs =>
    cases xs with
    | nil => rfl
    | cons x xs =>
      have hlist : (Value.strs (x :: xs)).render.toList ++ rest =
          '[' :: ((commaSep ((x :: xs).map jsonString)).toList ++ ']' :: rest) := by
        simp [Value.render, String.toList_append]
      obtain ⟨more, hmore⟩ : ∃ more, (commaSep ((x :: xs).map jsonString)).toList ++ ']' :: rest =
          '"' :: more := by
        cases xs <;> simp [commaSep, String.toList_append, toList_jsonString]
      have hlen : (x :: xs).length ≤
          ((commaSep ((x :: xs).map jsonString)).toList ++ ']' :: rest).length := by
        have hle := length_le_commaSep ((x :: xs).map jsonString) fun y hy => by
          obtain ⟨z, -, rfl⟩ := List.mem_map.1 hy
          exact jsonString_ne_empty z
        rw [List.length_map] at hle
        rw [List.length_append]
        omega
      have htexts := readTexts_render (List.cons_ne_nil x xs) hlen rest
      rw [hmore] at htexts
      rw [hlist, hmore]
      show (readTexts ('"' :: more).length ('"' :: more)).map _ = _
      rw [htexts]
      rfl

/-- The text of a field begins with its key. -/
lemma readChars_renderField (f : String × Value) (rest : List Char) :
    ∃ body, (renderField f).toList ++ rest = '"' :: body ∧
      readChars body = some (f.1.toList, ':' :: (f.2.render.toList ++ rest)) := by
  obtain ⟨body, hbody, hread⟩ := readChars_jsonString f.1 (':' :: (f.2.render.toList ++ rest))
  refine ⟨body, ?_, hread⟩
  rw [← hbody]
  simp [renderField, String.toList_append]

/-- The fields of an object are read back.

**Proof sketch.** By induction on the fields. A field is read back, and behind it stands a comma, if
there are more, or the closing brace. -/
lemma readFields_render {fs : Frame} (hne : fs ≠ []) {n : ℕ} (hn : fs.length ≤ n) :
    readFields n ((commaSep (fs.map renderField)).toList ++ ['\x7d']) = some fs := by
  induction fs generalizing n with
  | nil => exact absurd rfl hne
  | cons f fs ih =>
    obtain ⟨n, rfl⟩ : ∃ m, n = m + 1 := ⟨n - 1, by simp only [List.length_cons] at hn; omega⟩
    cases fs with
    | nil =>
      obtain ⟨body, hbody, hread⟩ := readChars_renderField f ['\x7d']
      have hvalue : readValue (f.2.render.toList ++ ['\x7d']) = some (f.2, ['\x7d']) :=
        readValue_render f.2 (by simp [Stops])
      simp only [List.map_cons, List.map_nil, commaSep, hbody, readFields, hread, hvalue,
        Option.bind_eq_bind, Option.bind_some, String.ofList_toList]
      rfl
    | cons g gs =>
      obtain ⟨body, hbody, hread⟩ := readChars_renderField f
        (',' :: ((commaSep ((g :: gs).map renderField)).toList ++ ['\x7d']))
      have hvalue := readValue_render f.2 (show Stops
        (',' :: ((commaSep ((g :: gs).map renderField)).toList ++ ['\x7d'])) by simp [Stops])
      have htext : (commaSep ((f :: g :: gs).map renderField)).toList ++ ['\x7d'] =
          '"' :: body := by
        rw [← hbody]
        simp [commaSep, String.toList_append]
      have hmore := ih (by simp) (show (g :: gs).length ≤ n by
        simp only [List.length_cons] at hn ⊢; omega)
      rw [htext]
      simp only [readFields, hread, hvalue, Option.bind_eq_bind, Option.bind_some, hmore,
        String.ofList_toList]
      rfl

/-- **An object is read back from its text.**

**Proof sketch.** The text of an object begins with a brace. If it has fields, the first one begins
with a quote, and there is fuel for all of them. -/
theorem readFrame_render (fs : Frame) : readFrame fs.render = some fs := by
  have hlist : fs.render.toList =
      '\x7b' :: ((commaSep (fs.map renderField)).toList ++ ['\x7d']) := by
    simp [Frame.render, String.toList_append]
  cases fs with
  | nil => rfl
  | cons f fs =>
    obtain ⟨body, hbody, -⟩ := readChars_renderField f []
    obtain ⟨more, hmore⟩ : ∃ more, (commaSep ((f :: fs).map renderField)).toList ++ ['\x7d'] =
        '"' :: more := by
      rw [List.append_nil] at hbody
      cases fs <;> simp [commaSep, String.toList_append, hbody]
    have hlen : (f :: fs).length ≤
        ((commaSep ((f :: fs).map renderField)).toList ++ ['\x7d']).length := by
      have hle := length_le_commaSep ((f :: fs).map renderField) fun y hy => by
        obtain ⟨z, -, rfl⟩ := List.mem_map.1 hy
        exact renderField_ne_empty z
      rw [List.length_map] at hle
      rw [List.length_append]
      omega
    have hfields := readFields_render (List.cons_ne_nil f fs) hlen
    rw [hmore] at hfields
    unfold readFrame
    rw [hlist, hmore]
    exact hfields

end Duocb.Json
