import Duocb.Library.Memory
import Duocb.Ffi.Events

set_option relaxedAutoImplicit false
set_option autoImplicit false

/-!
# Texts in the caller's buffers

A text is handed to a foreign caller in a buffer of the caller's, with a NUL behind it. A text that
is too long is cut, between two characters and not within one. The copy itself checks nothing: how
far it may go is decided before it begins.

## Main definitions

* `Duocb.Cstr.writeCstr` — what is stored for a text, and whether all of it was.
* `Duocb.Cstr.LongestFitting` — the longest part of a text, from its start, that fits.

## Main results

* `Duocb.Cstr.exists_longestFitting` — backing off finds it.
* `Duocb.Cstr.writeCstr_spec` — a text is written up to where it fits, with a NUL behind it, within
  the buffer.
-/

namespace Duocb

/-! ## The buffer -/

namespace Cstr

/-- `ptr::copy_nonoverlapping`: the first `count` bytes of a byte string, stored from `dst` on. -/
def copyNonoverlapping (src : Bytes) (dst count : ℕ) : List (ℕ × UInt8) :=
  Memory.consecutive dst (src.take count)

/-- Copy `s` into `buf` as a NUL-terminated C string, truncating if needed: what is stored, and
whether the whole string fit. A buffer is an address, or NULL. -/
def writeCstr (buf : Option ℕ) (len : ℕ) (s : String) : Bool × List (ℕ × UInt8) :=
  match buf with
  | none => (false, [])
  | some buf =>
    if len = 0 then (false, [])
    else
      -- one byte is kept for the NUL, and no character is sliced in half
      let copy := lastBoundary s (min s.utf8ByteSize (len - 1))
      (copy = s.utf8ByteSize, copyNonoverlapping (utf8 s) buf copy ++ [(buf + copy, 0)])

/-- The longest prefix of a text that ends between two characters and takes up at most `n` bytes. -/
structure LongestFitting (s : String) (n : ℕ) (p : String) : Prop where
  start : ∃ t, s = p ++ t
  fits : p.utf8ByteSize ≤ n
  longest : ∀ q t, s = q ++ t → q.utf8ByteSize ≤ n → q.utf8ByteSize ≤ p.utf8ByteSize

/-- Backing off ends between two characters. -/
lemma lastBoundary_isValid (s : String) (n : ℕ) :
    (⟨lastBoundary s n⟩ : String.Pos.Raw).IsValid s := by
  induction n with
  | zero => exact String.Pos.Raw.isValid_zero
  | succ n ih =>
    unfold lastBoundary
    split
    · assumption
    · exact ih

/-- Backing off goes no further than it has to. -/
lemma le_lastBoundary {s : String} {k n : ℕ} (hk : (⟨k⟩ : String.Pos.Raw).IsValid s)
    (hle : k ≤ n) : k ≤ lastBoundary s n := by
  induction n with
  | zero => exact hle
  | succ n ih =>
    unfold lastBoundary
    split
    · exact hle
    · rename_i hnot
      apply ih
      rcases Nat.le_succ_iff.1 hle with hle | rfl
      · exact hle
      · exact absurd hk hnot

/-- **Backing off finds the longest prefix that fits.**

**Proof sketch.** The last boundary not beyond the limit is where a prefix ends, and a longer prefix
that fits would end at a later boundary. -/
lemma exists_longestFitting (s : String) (n : ℕ) :
    ∃ p, LongestFitting s n p ∧ p.utf8ByteSize = lastBoundary s (min s.utf8ByteSize n) := by
  obtain ⟨p, t, hs, hpos⟩ := String.Pos.Raw.isValid_iff_exists_append.1
    (lastBoundary_isValid s (min s.utf8ByteSize n))
  have hsize : p.utf8ByteSize = lastBoundary s (min s.utf8ByteSize n) :=
    (congrArg String.Pos.Raw.byteIdx hpos).symm
  refine ⟨p, ⟨⟨t, hs⟩, ?_, fun q u hq hfits => ?_⟩, hsize⟩
  · have hle := lastBoundary_le s (min s.utf8ByteSize n)
    omega
  · have hvalid : (⟨q.utf8ByteSize⟩ : String.Pos.Raw).IsValid s :=
      String.Pos.Raw.isValid_iff_exists_append.2 ⟨q, u, hq, rfl⟩
    have hle : q.utf8ByteSize ≤ s.utf8ByteSize := by
      rw [hq, String.utf8ByteSize_append]
      omega
    rw [hsize]
    exact le_lastBoundary hvalid (by omega)

/-- A text that fits is its own longest prefix. -/
lemma LongestFitting.eq_iff {s p : String} {n : ℕ} (h : LongestFitting s n p) :
    p = s ↔ s.utf8ByteSize ≤ n := by
  constructor
  · rintro rfl
    exact h.fits
  · intro hfits
    obtain ⟨t, hs⟩ := h.start
    have hle := h.longest s "" (by simp) hfits
    have hsize : s.utf8ByteSize = p.utf8ByteSize + t.utf8ByteSize := by
      rw [hs, String.utf8ByteSize_append]
    have ht : t = "" := String.utf8ByteSize_eq_zero_iff.1 (by omega)
    rw [hs, ht, String.append_empty]

/-- The bytes of a prefix come first. -/
lemma take_utf8_append (p t : String) : (utf8 (p ++ t)).take p.utf8ByteSize = utf8 p := by
  have happend : utf8 (p ++ t) = utf8 p ++ utf8 t := by simp [utf8]
  rw [happend, ← length_utf8, List.take_left]

/-- What is stored for a text: its longest prefix that fits and a NUL, one byte after the other. -/
lemma writeCstr_snd {len : ℕ} (hlen : 1 ≤ len) (buf : ℕ) {s p : String}
    (hp : ∃ t, s = p ++ t)
    (hsize : p.utf8ByteSize = lastBoundary s (min s.utf8ByteSize (len - 1))) :
    (writeCstr (some buf) len s).2 = Memory.consecutive buf (utf8 p ++ [0]) := by
  obtain ⟨t, ht⟩ := hp
  have htake : (utf8 s).take p.utf8ByteSize = utf8 p := by rw [ht, take_utf8_append]
  rw [Memory.consecutive_concat, length_utf8]
  simp only [writeCstr, if_neg (Nat.one_le_iff_ne_zero.1 hlen), ← hsize, copyNonoverlapping, htake]

/-- Whether all of a text was written does not depend on where. -/
lemma writeCstr_fst (buf len : ℕ) (s : String) :
    (writeCstr (some buf) len s).1 = Duocb.writeCstr len s := by
  simp only [writeCstr, Duocb.writeCstr]
  split
  · rfl
  · rfl

/-- **A text is written within its buffer, and the answer is honest.** The longest prefix of the
text that leaves room for the NUL is written, and one NUL behind it. No byte is stored outside the
buffer, all memory but that of these bytes is as it was, and the answer is yes exactly if the
prefix is the whole text.

**Proof sketch.** The bytes of the prefix and the NUL are stored one after the other from the buffer
on, so they stay within it and are read back. The whole text fits exactly if it is its own longest
prefix. -/
theorem writeCstr_spec {len : ℕ} (hlen : 1 ≤ len) (s : String) (buf : ℕ) (m : Memory UInt8) :
    ∃ p, LongestFitting s (len - 1) p ∧
      (∀ store ∈ (writeCstr (some buf) len s).2, buf ≤ store.1 ∧ store.1 < buf + len) ∧
      (m.run (writeCstr (some buf) len s).2).read buf (p.utf8ByteSize + 1) = utf8 p ++ [0] ∧
      (∀ a, a < buf ∨ buf + (p.utf8ByteSize + 1) ≤ a →
        m.run (writeCstr (some buf) len s).2 a = m a) ∧
      ((writeCstr (some buf) len s).1 = true ↔ p = s) := by
  obtain ⟨p, hp, hsize⟩ := exists_longestFitting s (len - 1)
  have hlength : (utf8 p ++ [0]).length = p.utf8ByteSize + 1 := by simp
  have hfits := hp.fits
  rw [writeCstr_snd hlen buf hp.start hsize]
  refine ⟨p, hp, fun store hstore => ?_, ?_, fun a ha => ?_, ?_⟩
  · have hmem := Memory.mem_consecutive hstore
    rw [hlength] at hmem
    omega
  · rw [← hlength]
    exact Memory.read_run m buf _
  · exact Memory.run_of_disjoint (by rw [hlength]; exact ha) m
  · rw [writeCstr_fst, writeCstr_iff, hp.eq_iff]
    omega

/-- A buffer of three bytes ends within the second character of this text. -/
theorem writeCstr_spec_cut : ∃ p, LongestFitting "aéb" (3 - 1) p ∧
    (∀ store ∈ (writeCstr (some 16) 3 "aéb").2, 16 ≤ store.1 ∧ store.1 < 16 + 3) ∧
    (Memory.run (fun _ => 7) (writeCstr (some 16) 3 "aéb").2).read 16 (p.utf8ByteSize + 1) =
      utf8 p ++ [0] ∧
    (∀ a, a < 16 ∨ 16 + (p.utf8ByteSize + 1) ≤ a →
      Memory.run (fun _ => 7) (writeCstr (some 16) 3 "aéb").2 a = 7) ∧
    ((writeCstr (some 16) 3 "aéb").1 = true ↔ p = "aéb") :=
  writeCstr_spec (by decide) "aéb" 16 _

/-- Its second character is dropped whole. -/
example : writeCstr (some 16) 3 "aéb" = (false, [(16, 97), (17, 0)]) := by decide

end Cstr

end Duocb
