import Duocb.Framing.Objects

set_option relaxedAutoImplicit false
set_option autoImplicit false

/-!
# Sending a rejection

A listener that refuses a dialer says why. The reason is cut to a limit, at a character boundary, so
the frame that carries it stays within the cap of control messages, however much of it JSON has to
escape, and the dialer reads exactly what was written.

## Main definitions

* `Duocb.Truncated` — what a reason is cut to.

## Main results

* `Duocb.truncateReason_spec` — every reason is cut as it should be.
* `Duocb.Serde.rejection_sent` — a rejection can always be sent, and is read back.
-/

namespace Duocb

/-! ## Cutting a reason -/

/-- What a reason is cut to: itself, if it is short enough, and else as many of its first characters
as fit beside the ellipsis, and the ellipsis. -/
structure Truncated (reason t : String) (maxLen : ℕ) : Prop where
  short : reason.utf8ByteSize ≤ maxLen → t = reason
  long : maxLen < reason.utf8ByteSize → ∃ kept c rest, reason.toList = kept ++ c :: rest ∧
    t = String.ofList kept ++ "..." ∧ (String.ofList kept).utf8ByteSize ≤ maxLen - 3 ∧
    maxLen - 3 < (String.ofList (kept ++ [c])).utf8ByteSize
  limit : 3 ≤ maxLen → t.utf8ByteSize ≤ maxLen

/-- As many characters are taken as fit.

**Proof sketch.** By induction on the characters: the first one is taken if it fits, and the rest
has its size less. -/
lemma takeBytes_spec (cs : List Char) (n : ℕ) :
    ((takeBytes cs n).map Char.utf8Size).sum ≤ n ∧
      (takeBytes cs n = cs ∨ ∃ c rest, cs = takeBytes cs n ++ c :: rest ∧
        n < ((takeBytes cs n ++ [c]).map Char.utf8Size).sum) := by
  induction cs generalizing n with
  | nil => simp [takeBytes]
  | cons c cs ih =>
    rw [takeBytes]
    split_ifs with hfits
    · obtain ⟨hsum, hrest⟩ := ih (n - c.utf8Size)
      refine ⟨by simp only [List.map_cons, List.sum_cons]; omega, ?_⟩
      rcases hrest with hall | ⟨d, rest, hcs, hmore⟩
      · exact Or.inl (by rw [hall])
      · refine Or.inr ⟨d, rest, by rw [List.cons_append, ← hcs], ?_⟩
        simp only [List.cons_append, List.map_cons, List.sum_cons]
        omega
    · exact ⟨Nat.zero_le _, Or.inr ⟨c, cs, rfl, by simpa using hfits⟩⟩

/-- **Every reason is cut as it should be.**

**Proof sketch.** A reason that is too long keeps the first characters that fit in the limit less
the ellipsis: one more would not fit. With the ellipsis it is within the limit. -/
theorem truncateReason_spec (reason : String) (maxLen : ℕ) :
    Truncated reason (truncateReason reason maxLen) maxLen := by
  have hdots : "...".utf8ByteSize = 3 := by decide
  by_cases hlong : reason.utf8ByteSize > maxLen
  · have hcut : truncateReason reason maxLen =
        String.ofList (takeBytes reason.toList (maxLen - 3)) ++ "..." := by
      rw [truncateReason, if_pos hlong, hdots]
    obtain ⟨hsum, hrest⟩ := takeBytes_spec reason.toList (maxLen - 3)
    have hkept : (String.ofList (takeBytes reason.toList (maxLen - 3))).utf8ByteSize ≤
        maxLen - 3 := by
      rw [utf8ByteSize_ofList]
      exact hsum
    refine ⟨fun h => absurd hlong (Nat.not_lt.2 h), fun _ => ?_, fun h => ?_⟩
    · rcases hrest with hall | ⟨c, rest, hcs, hmore⟩
      · -- not all of a long reason fits
        rw [hall, String.ofList_toList] at hkept
        omega
      · exact ⟨_, c, rest, hcs, hcut, hkept, by rw [utf8ByteSize_ofList]; exact hmore⟩
    · rw [hcut, String.utf8ByteSize_append, hdots]
      omega
  · have hsame : truncateReason reason maxLen = reason := by rw [truncateReason, if_neg hlong]
    exact ⟨fun _ => hsame, fun h => absurd h hlong, fun _ => by rw [hsame]; omega⟩

/-! ## The frame of a rejection -/

/-- The two kinds of rejection are the same object. -/
lemma toFrame_rejected (reason : String) :
    (PinConfirm.rejected reason).toFrame = (AuthResponse.rejected reason).toFrame := rfl

/-- **A rejection is within the cap of control messages**, even if every byte of its reason has to
be escaped.

**Proof sketch.** The reason was cut at a limit, and escaping makes it six times as long at most.
The other parts of the frame have fixed sizes. -/
theorem rejected_fits (reason : String) :
    (AuthResponse.rejected reason).toFrame.size ≤ MAX_CONTROL_MESSAGE_SIZE := by
  have hlimit := (truncateReason_spec reason MAX_REJECT_REASON_LENGTH).limit (by decide)
  have htext := jsonString_le (truncateReason reason MAX_REJECT_REASON_LENGTH)
  have hnames : (jsonString "version").utf8ByteSize = 9 ∧
      (jsonString "accepted").utf8ByteSize = 10 ∧
      (jsonString "reason").utf8ByteSize = 8 := by decide
  have hvalues : (toString DUOCB_PROTO_VERSION).utf8ByteSize = 1 ∧ "false".utf8ByteSize = 5 := by
    decide
  have hmarks : ("\x7b" : String).utf8ByteSize = 1 ∧ ("\x7d" : String).utf8ByteSize = 1 ∧
      (":" : String).utf8ByteSize = 1 ∧ ("," : String).utf8ByteSize = 1 := by decide
  unfold MAX_REJECT_REASON_LENGTH at hlimit
  unfold MAX_CONTROL_MESSAGE_SIZE
  simp only [Frame.size, Frame.render, AuthResponse.rejected, AuthResponse.toFrame, optField,
    Option.map_some, Option.toList_some, List.cons_append, List.nil_append, List.map, renderField,
    Value.render, commaSep, String.utf8ByteSize_append, Bool.false_eq_true, if_false, hnames,
    hvalues, hmarks]
  unfold MAX_REJECT_REASON_LENGTH at htext ⊢
  omega

/-! ## Sending it -/

namespace Serde

/-- **A rejection can always be sent.** Every reason is cut to the limit: it stays as it is if it is
short enough, and else its first characters that fit stay, with an ellipsis. The frames of both
rejections with that reason are encoded within the cap of control messages, and decoded to the same
rejection.

**Proof sketch.** The first two parts are what cutting does. The frames fit under the limit, since
an escape is at most six bytes long and the reason is cut, and a frame that fits is read back. -/
theorem rejection_sent {A : Serde AuthResponse} {P : Serde PinConfirm}
    (hA : A.ReadsFrames AuthResponse.toFrame AuthResponse.ofFrame AuthResponse.version)
    (hP : P.ReadsFrames PinConfirm.toFrame PinConfirm.ofFrame PinConfirm.version)
    (reason : String) :
    (truncateReason reason MAX_REJECT_REASON_LENGTH).utf8ByteSize ≤ MAX_REJECT_REASON_LENGTH ∧
    Truncated reason (truncateReason reason MAX_REJECT_REASON_LENGTH) MAX_REJECT_REASON_LENGTH ∧
    (∃ bs, A.encodeLengthPrefixed MAX_CONTROL_MESSAGE_SIZE "AuthResponse"
        (AuthResponse.rejected reason) = .ok bs ∧ bs.length ≤ 4 + MAX_CONTROL_MESSAGE_SIZE ∧
      A.decodeLengthPrefixed MAX_CONTROL_MESSAGE_SIZE "AuthResponse" bs =
        .ok (AuthResponse.rejected reason)) ∧
    ∃ bs, P.encodeLengthPrefixed MAX_CONTROL_MESSAGE_SIZE "PinConfirm"
        (PinConfirm.rejected reason) = .ok bs ∧ bs.length ≤ 4 + MAX_CONTROL_MESSAGE_SIZE ∧
      P.decodeLengthPrefixed MAX_CONTROL_MESSAGE_SIZE "PinConfirm" bs =
        .ok (PinConfirm.rejected reason) := by
  have hcut := truncateReason_spec reason MAX_REJECT_REASON_LENGTH
  have hmax : MAX_CONTROL_MESSAGE_SIZE < 2 ^ 32 := by decide
  refine ⟨hcut.limit (by decide), hcut, ?_, ?_⟩
  · exact hA.sent hmax (rejected_fits reason) (decodeAuthResponse_rejected reason)
  · refine hP.sent hmax ?_ (decodePinConfirm_rejected reason)
    rw [toFrame_rejected]
    exact rejected_fits reason

/-- A reason that is too long, of characters that JSON escapes by six each. -/
def sampleReason : String := String.ofList (List.replicate 600 (Char.ofNat 1))

/-- It is cut to the limit, and the rejection is sent and read back. -/
theorem rejection_sent_sample :
    (truncateReason sampleReason MAX_REJECT_REASON_LENGTH).utf8ByteSize ≤ MAX_REJECT_REASON_LENGTH ∧
    ∃ bs, (ofFrames PinConfirm.toFrame PinConfirm.ofFrame PinConfirm.version).decodeLengthPrefixed
      MAX_CONTROL_MESSAGE_SIZE "PinConfirm" bs = .ok (PinConfirm.rejected sampleReason) := by
  obtain ⟨hlimit, -, -, bs, -, -, hdecode⟩ := rejection_sent
    (ofFrames_readsFrames AuthResponse.toFrame AuthResponse.ofFrame AuthResponse.version)
    (ofFrames_readsFrames PinConfirm.toFrame PinConfirm.ofFrame PinConfirm.version) sampleReason
  exact ⟨hlimit, bs, hdecode⟩

end Serde

end Duocb
