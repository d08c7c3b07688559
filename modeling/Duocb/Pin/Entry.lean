import Duocb.Pin.Canonical

set_option relaxedAutoImplicit false
set_option autoImplicit false

/-!
# Typing a PIN in two fields

The entry of a PIN has a field for each of its groups. What is typed into a field is sanitized and
cut, and a whole PIN that is pasted into the first one spills into the second. This keeps the same
characters as the final check of the PIN does.

## Main results

* `Duocb.toList_sanitizePinChars` — the characters that are kept in a field.
* `Duocb.splitPinGroups_spec` — what the two fields hold.
* `Duocb.pinEntry_agrees` — a PIN that is pasted is accepted as if it had been typed whole.
-/

namespace Duocb

/-- A character that is kept in a field is kept as it is from then on. -/
lemma pinChar_idem {c : Char} (h : asU8 (pinChar c) ∈ ALPHABET) :
    pinChar (pinChar c) = pinChar c := by
  by_cases hc : IsAscii c
  · exact (pinChar_spec (pinChar_of_ascii hc h).1).pinChar_eq
  · rw [pinChar_of_not_ascii hc, pinChar_of_not_ascii hc]

/-- A separator is no character of the alphabet. -/
lemma not_mem_of_isSeparator {c : Char} (h : isSeparator c = true) :
    asU8 (pinChar c) ∉ ALPHABET := by
  rw [isSeparator, decide_eq_true_eq] at h
  rcases h with rfl | rfl | rfl <;> decide +kernel

/-- The characters that are kept in a field: the significant ones that pass for the alphabet.

**Proof sketch.** By induction on the text: a separator is neither significant nor kept, and of the
others those are kept that pass for the alphabet. -/
lemma toList_sanitizePinChars (s : String) :
    (sanitizePinChars s).toList = (significant s).filter fun c => asU8 c ∈ ALPHABET := by
  rw [sanitizePinChars, String.toList_ofList, significant]
  induction s.toList with
  | nil => rfl
  | cons c cs ih =>
    rw [List.filterMap_cons]
    by_cases hsep : isSeparator c = true
    · rw [if_neg (not_mem_of_isSeparator hsep), List.filter_cons_of_neg (by simp [hsep])]
      exact ih
    · rw [List.filter_cons_of_pos (by simp [hsep]), List.map_cons]
      by_cases hmem : asU8 (pinChar c) ∈ ALPHABET
      · rw [if_pos hmem, List.filter_cons_of_pos (by simp [hmem])]
        exact congrArg (pinChar c :: ·) ih
      · rw [if_neg hmem, List.filter_cons_of_neg (by simp [hmem])]
        exact ih

/-- Sanitizing what is sanitized changes nothing. -/
lemma sanitizePinChars_idem (s : String) :
    sanitizePinChars (sanitizePinChars s) = sanitizePinChars s := by
  rw [sanitizePinChars]
  have hkept : ∀ c ∈ (sanitizePinChars s).toList,
      (if asU8 (pinChar c) ∈ ALPHABET then some (pinChar c) else none) = some c := by
    intro c hc
    rw [sanitizePinChars, String.toList_ofList, List.mem_filterMap] at hc
    obtain ⟨d, -, hd⟩ := hc
    rw [Option.ite_none_right_eq_some] at hd
    obtain ⟨hmem, hd⟩ := hd
    obtain rfl := Option.some.inj hd
    rw [pinChar_idem hmem, if_pos hmem]
  rw [List.filterMap_congr hkept, List.filterMap_some, String.ofList_toList]

/-- What the two fields hold: the leading characters of the first field when it spills into an empty
second one, and else each field's own.

**Proof sketch.** By the two branches of the split; two groups that are cut one after the other are
the text cut once. -/
lemma splitPinGroups_spec (first second : String) :
    (PIN_GROUP_LEN < first.toList.length ∧ second = "" →
      (splitPinGroups first second).1.toList ++ (splitPinGroups first second).2.toList =
        first.toList.take (2 * PIN_GROUP_LEN)) ∧
    (¬ (PIN_GROUP_LEN < first.toList.length ∧ second = "") →
      (splitPinGroups first second).1.toList = first.toList.take PIN_GROUP_LEN ∧
      (splitPinGroups first second).2.toList = second.toList.take PIN_GROUP_LEN) := by
  constructor
  · intro h
    rw [splitPinGroups, if_pos h, capGroup, String.toList_ofList, String.toList_ofList,
      ← List.take_add, Nat.two_mul]
  · intro h
    rw [splitPinGroups, if_neg h, capGroup, capGroup, String.toList_ofList, String.toList_ofList]
    exact ⟨rfl, rfl⟩

/-- No field holds more than a group. -/
lemma splitPinGroups_length (first second : String) :
    (splitPinGroups first second).1.toList.length ≤ PIN_GROUP_LEN ∧
      (splitPinGroups first second).2.toList.length ≤ PIN_GROUP_LEN := by
  rw [splitPinGroups]
  split_ifs
  all_goals
    simp only [capGroup, String.toList_ofList]
    exact ⟨List.length_take_le _ _, List.length_take_le _ _⟩

/-- Two fields that hold no more than a group each are left alone. -/
lemma splitPinGroups_of_length {first second : String}
    (hfirst : first.toList.length ≤ PIN_GROUP_LEN)
    (hsecond : second.toList.length ≤ PIN_GROUP_LEN) :
    splitPinGroups first second = (first, second) := by
  rw [splitPinGroups, if_neg fun h => absurd h.1 (Nat.not_lt.2 hfirst), capGroup, capGroup,
    List.take_of_length_le hfirst, List.take_of_length_le hsecond, String.ofList_toList,
    String.ofList_toList]

/-- **A PIN that is pasted is accepted as if it had been typed whole.** What the fields hold are
the characters that were entered, in their order, and entering them again changes nothing.

**Proof sketch.** A PIN of ASCII characters has eight significant characters, all of the alphabet,
so none is dropped and both fields are full. Cutting what was cut changes nothing. -/
theorem pinEntry_agrees :
    (∀ s p, (∀ c ∈ s.toList, IsAscii c) → normalizePin s = some p →
      normalizePin ((splitPinGroups (sanitizePinChars s) "").1 ++
        (splitPinGroups (sanitizePinChars s) "").2) = some p) ∧
    (∀ s, sanitizePinChars (sanitizePinChars s) = sanitizePinChars s) ∧
    ∀ first second,
      splitPinGroups (splitPinGroups first second).1 (splitPinGroups first second).2 =
        splitPinGroups first second ∧
      (splitPinGroups first second).1.toList.length ≤ PIN_GROUP_LEN ∧
      (splitPinGroups first second).2.toList.length ≤ PIN_GROUP_LEN ∧
      (PIN_GROUP_LEN < first.toList.length ∧ second = "" →
        (splitPinGroups first second).1.toList ++ (splitPinGroups first second).2.toList =
          first.toList.take (2 * PIN_GROUP_LEN)) ∧
      (¬ (PIN_GROUP_LEN < first.toList.length ∧ second = "") →
        (splitPinGroups first second).1.toList = first.toList.take PIN_GROUP_LEN ∧
        (splitPinGroups first second).2.toList = second.toList.take PIN_GROUP_LEN) := by
  refine ⟨fun s p hascii hp => ?_, sanitizePinChars_idem, fun first second => ?_⟩
  · have hnormal := (normalizePin_canonical s).2
      (fun hmask => hmask.foreign.elim fun c hc => hc.2 (hascii c hc.1)) p hp
    obtain ⟨hpeq, hpasses, -⟩ := normalizePin_eq_some.1 hp
    have hkept : (sanitizePinChars s).toList = p.toList := by
      rw [toList_sanitizePinChars, hpeq, String.toList_ofList]
      exact List.filter_eq_self.2 fun c hc => decide_eq_true (hpasses c hc)
    have hlong : PIN_GROUP_LEN < (sanitizePinChars s).toList.length := by
      rw [hkept, hnormal.canonical.length]
      decide
    have hfields := (splitPinGroups_spec (sanitizePinChars s) "").1 ⟨hlong, rfl⟩
    have hwhole : (splitPinGroups (sanitizePinChars s) "").1 ++
        (splitPinGroups (sanitizePinChars s) "").2 = p := by
      apply String.toList_inj.1
      rw [String.toList_append, hfields, hkept]
      exact List.take_of_length_le (Nat.le_of_eq hnormal.canonical.length)
    rw [hwhole]
    exact hnormal.again
  · have hlength := splitPinGroups_length first second
    have hspec := splitPinGroups_spec first second
    exact ⟨splitPinGroups_of_length hlength.1 hlength.2, hlength.1, hlength.2, hspec.1, hspec.2⟩

end Duocb
