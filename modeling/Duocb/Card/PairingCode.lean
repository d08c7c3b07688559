import Duocb.Card

set_option relaxedAutoImplicit false
set_option autoImplicit false

/-!
# The pairing code detects a substituted card

The code two people compare is the fingerprints of two keys end to end. All fingerprints have one
length, so the code can be read as two fingerprints again. Their order follows the keys, which the
two people do not share, so a code that both read may hold the fingerprints in either order for
each of them.

## Main results

* `Duocb.length_keyFingerprint` — all fingerprints have one length.
* `Duocb.pairingCode_eq_ok` — a code is the two fingerprints, in one of the two orders.
* `Duocb.pairingCode_detects` — two people who read the same code hold each other's keys, up to the
  fingerprint.
-/

namespace Duocb

/-- Each group of a fingerprint has four digits. -/
lemma length_of_mem_upperPairs {bs : Bytes} : ∀ t ∈ upperPairs bs, t.toList.length = 4 := by
  fun_induction upperPairs bs with
  | case1 a b rest ih =>
    intro t ht
    rcases List.mem_cons.1 ht with rfl | ht
    · rw [String.toList_ofList, List.length_map]
      rfl
    · exact ih t ht
  | case2 => exact fun _ ht => absurd ht List.not_mem_nil

/-- Two bytes make a group. -/
lemma length_upperPairs (bs : Bytes) : (upperPairs bs).length = bs.length / 2 := by
  fun_induction upperPairs bs with
  | case1 a b rest ih =>
    rw [List.length_cons, ih, List.length_cons, List.length_cons]
    omega
  | case2 bs h =>
    match bs, h with
    | [], _ => rfl
    | [_], _ => simp
    | a :: b :: rest, h => exact absurd rfl (h a b rest)

/-- The length of groups with a blank between each two.

**Proof sketch.** By induction on the groups. Each but the last one comes with a blank. -/
lemma length_intercalate {ts : List String} {n : ℕ} (h : ∀ t ∈ ts, t.toList.length = n) :
    (" ".intercalate ts).toList.length = ts.length * (n + 1) - 1 := by
  induction ts with
  | nil => simp
  | cons t ts ih =>
    rw [List.forall_mem_cons] at h
    rcases List.eq_nil_or_concat ts with rfl | ⟨_, _, hts⟩
    · rw [String.intercalate_singleton, h.1, List.length_singleton]
      omega
    · have hne : ts ≠ [] := by
        rw [hts]
        simp
      have hpos : 0 < ts.length := List.length_pos_of_ne_nil hne
      have hpos' : 0 < ts.length * (n + 1) := Nat.mul_pos hpos (Nat.succ_pos n)
      rw [String.intercalate_cons_of_ne_nil hne, String.toList_append, String.toList_append,
        List.length_append, List.length_append, ih h.2, h.1, List.length_cons, Nat.succ_mul]
      have hblank : " ".toList.length = 1 := rfl
      omega

/-- **All fingerprints have one length**, if the hashes do. -/
theorem length_keyFingerprint {sha256 : Bytes → Bytes} (h : ∀ m, (sha256 m).length = 32)
    (key : PublicKey) : (keyFingerprint sha256 key).toList.length = 24 := by
  rw [keyFingerprint, length_intercalate length_of_mem_upperPairs, length_upperPairs,
    List.length_take, h]
  rfl

/-- **A code is the two fingerprints**, in one of the two orders. -/
theorem pairingCode_eq_ok {sha256 : Bytes → Bytes} {a b : PublicKey} {code : String}
    (h : pairingCode sha256 a b = .ok code) :
    code = keyFingerprint sha256 a ++ " " ++ keyFingerprint sha256 b ∨
      code = keyFingerprint sha256 b ++ " " ++ keyFingerprint sha256 a := by
  unfold pairingCode at h
  split_ifs at h
  · exact Or.inl (Except.ok.inj h).symm
  · exact Or.inr (Except.ok.inj h).symm

/-- A code can be read as two fingerprints again. -/
lemma code_inj {sha256 : Bytes → Bytes} (h : ∀ m, (sha256 m).length = 32) {a b c d : PublicKey}
    (heq : keyFingerprint sha256 a ++ " " ++ keyFingerprint sha256 b =
      keyFingerprint sha256 c ++ " " ++ keyFingerprint sha256 d) :
    keyFingerprint sha256 a = keyFingerprint sha256 c ∧
      keyFingerprint sha256 b = keyFingerprint sha256 d := by
  have hlist := congrArg String.toList heq
  simp only [String.toList_append, List.append_assoc] at hlist
  obtain ⟨hfirst, hrest⟩ := List.append_inj hlist
    (by rw [length_keyFingerprint h, length_keyFingerprint h])
  exact ⟨String.toList_inj.1 hfirst, String.toList_inj.1 (List.append_cancel_left hrest)⟩

/-- **The pairing code detects a substituted card.** Two people whose keys have different
fingerprints and who read the same code hold each other's keys, up to the fingerprint. The code does
not depend on the order of the keys, and a key has none with itself.

**Proof sketch.** Each of the two reads the code as the own fingerprint and that of the key they
hold, in one of the two orders. In the same order the own fingerprints would be equal. -/
theorem pairingCode_detects {sha256 : Bytes → Bytes} (hsha : ∀ m, (sha256 m).length = 32) :
    (∀ a b x y code, keyFingerprint sha256 a ≠ keyFingerprint sha256 b →
      pairingCode sha256 a x = .ok code → pairingCode sha256 b y = .ok code →
      keyFingerprint sha256 x = keyFingerprint sha256 b ∧
        keyFingerprint sha256 y = keyFingerprint sha256 a) ∧
    (∀ a b, pairingCode sha256 a b = pairingCode sha256 b a) ∧
    ∀ a code, pairingCode sha256 a a ≠ .ok code := by
  refine ⟨fun a b x y code hne hax hby => ?_, fun a b => ?_, fun a code h => ?_⟩
  · rcases pairingCode_eq_ok hax with hax | hax
    · rcases pairingCode_eq_ok hby with hby | hby
      · exact absurd (code_inj hsha (hax.symm.trans hby)).1 hne
      · obtain ⟨hay, hxb⟩ := code_inj hsha (hax.symm.trans hby)
        exact ⟨hxb, hay.symm⟩
    · rcases pairingCode_eq_ok hby with hby | hby
      · obtain ⟨hxb, hay⟩ := code_inj hsha (hax.symm.trans hby)
        exact ⟨hxb, hay.symm⟩
      · exact absurd (code_inj hsha (hax.symm.trans hby)).2 hne
  · by_cases hab : a = b
    · rw [hab]
    · obtain ⟨code, hcode, hcode'⟩ : ∃ code, pairingCode sha256 a b = .ok code ∧
          pairingCode sha256 b a = .ok code := pairingCode_comm hab
      rw [hcode, hcode']
  · rw [pairingCode, if_pos rfl] at h
    cases h

section Sample

/-- Two keys, -/
def sampleFirst : PublicKey := .filled 1

/-- The key of the second device. -/
def sampleSecond : PublicKey := .filled 2

/-- and the SHA-256 hashes behind their fingerprints. They are the real hashes of the two keys, so
that the code is the one that the two devices would show. -/
def sampleSha256 (m : Bytes) : Bytes :=
  if m = FINGERPRINT_DOMAIN ++ sampleFirst.bytes then
    [8, 248, 122, 200, 160, 7, 55, 87, 229, 15, 106, 84, 35, 74, 76, 146, 96, 120, 147, 220,
      156, 161, 184, 176, 136, 74, 39, 137, 161, 229, 84, 170]
  else if m = FINGERPRINT_DOMAIN ++ sampleSecond.bytes then
    [29, 89, 54, 100, 243, 234, 95, 119, 192, 251, 50, 13, 120, 208, 237, 197, 78, 50, 244, 140,
      82, 140, 174, 242, 177, 184, 180, 18, 234, 11, 167, 199]
  else List.replicate 32 0

/-- Two devices that hold each other's cards read one code.

**Proof sketch.** The hashes are computed, and the theorem is applied to the two keys in both
orders. -/
theorem pairingCode_detects_sample : ∃ code,
    keyFingerprint sampleSha256 sampleFirst ≠ keyFingerprint sampleSha256 sampleSecond ∧
    pairingCode sampleSha256 sampleFirst sampleSecond = .ok code ∧
    pairingCode sampleSha256 sampleSecond sampleFirst = .ok code ∧
    keyFingerprint sampleSha256 sampleFirst = keyFingerprint sampleSha256 sampleFirst := by
  have hsha : ∀ m, (sampleSha256 m).length = 32 := by
    intro m
    unfold sampleSha256
    split_ifs <;> rfl
  have hne :
      keyFingerprint sampleSha256 sampleFirst ≠ keyFingerprint sampleSha256 sampleSecond := by
    decide +kernel
  have hkeys : sampleFirst ≠ sampleSecond := by decide
  obtain ⟨hdetects, hcomm, -⟩ := pairingCode_detects hsha
  obtain ⟨code, hcode⟩ := pairingCode_ok sampleSha256 hkeys
  have hcode' := (hcomm sampleSecond sampleFirst).trans hcode
  exact ⟨code, hne, hcode, hcode', (hdetects _ _ _ _ _ hne hcode hcode').2⟩

end Sample

end Duocb
