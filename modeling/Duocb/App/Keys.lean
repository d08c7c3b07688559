import Duocb.App

set_option relaxedAutoImplicit false
set_option autoImplicit false

/-!
# Global keyboard shortcuts

Plain letter keys are only bound while no text field has focus; elsewhere a shortcut needs the
command modifier. A question that covers the window owns the keyboard while it is up.

## Main definitions

* `Duocb.KeyPress`, `Duocb.Inputs` — a key event, and what the actions it may fire read.
* `Duocb.App.handleGlobalKey` — whether a key event is consumed, and the action it fires.
* `Duocb.App.pressKey` — what a key event changes and sends.

## Main results

* `Duocb.App.handleGlobalKey_enabled` — a shortcut fires only what the screen offers.
* `Duocb.App.typing_not_hijacked` — when a typed character is left to the text field.
-/

namespace Duocb

/-- A key event of the window. The text is that of the key as the toolkit reports it, a letter or
the code of a special key. -/
structure KeyPress where
  text : String
  /-- No modifier is held at all. -/
  plain : Bool
  /-- Exactly the command modifier is held. -/
  command : Bool
  /-- A text field has the focus. -/
  fieldFocused : Bool
  deriving DecidableEq

namespace KeyPress

/-- The text of the escape key, -/
def ESCAPE : Char := Char.ofNat 0x1b

/-- of the return key, -/
def RETURN : Char := '\n'

/-- of the arrow up -/
def UP_ARROW : Char := Char.ofNat 0xf700

/-- and of the arrow down. -/
def DOWN_ARROW : Char := Char.ofNat 0xf701

/-- The first character of the event. -/
def key (k : KeyPress) : Option Char := k.text.toList.head?

/-- An unmodified special key. -/
def is (k : KeyPress) (c : Char) : Bool := k.plain && k.key = some c

/-- An unmodified letter, in either case. -/
def letter (k : KeyPress) (c : Char) : Bool := k.plain && k.key.any fun d => d.toLower = c.toLower

/-- A letter with the command modifier, in either case. -/
def commandLetter (k : KeyPress) (c : Char) : Bool :=
  k.command && k.key.any fun d => d.toLower = c.toLower

end KeyPress

/-- What the actions behind the shortcuts read: the form fields, the clipboard, the keys and cards
that are generated and minted, and why saving and copying fail if they do. -/
structure Inputs where
  fresh : Identity
  imported : Option Identity
  name : String
  minted : Option IdentityCard
  pasted : Option IdentityCard
  pin : Option String
  ip : JoinIpOutcome
  ipLabel : String
  clipboard : Except String String
  saveFailure : Option String
  copyFailure : Option String

/-- Whether a key event is consumed, and the action it fires, if it fires one that matters here. -/
abbrev KeyEffect : Type := Bool × Option UserAction

/-- The event fires an action. -/
def fires (u : UserAction) : KeyEffect := (true, some u)

/-- The event is not for this place. -/
def ignored : KeyEffect := (false, none)

namespace App

variable {τ : Type}

/-- Shortcuts of the home screen, by its step. Naming a device can be left with escape only by one
that has a name and a card already. -/
def handleConfigureKey (a : App τ) (k : KeyPress) (i : Inputs) : KeyEffect :=
  match a.configureStep with
  | .setupChoice =>
    if k.letter 'g' then fires (.beginGenerate i.fresh)
    else if k.letter 'i' then fires .openImport
    else ignored
  | .setupImport =>
    if k.letter 'u' then fires (.useImported i.imported i.saveFailure)
    else if k.is KeyPress.ESCAPE then fires .cancelSetup
    else ignored
  | .setupName =>
    if k.is KeyPress.RETURN then fires (.saveName i.name i.minted i.saveFailure)
    else if k.is KeyPress.ESCAPE ∧ a.savedName.isSome ∧ a.selfCard.isSome then fires .cancelName
    else ignored
  | .ready =>
    if k.letter 'q' then fires (.openCardSetup i.minted i.saveFailure)
    else if k.letter 'c' then fires .openConnectPicker
    else if k.letter 'r' then fires .rename
    else if k.letter 'b' then fires (.copyText i.copyFailure)
    else if k.letter 'x' then fires .requestResetIdentity
    else if k.letter 'i' then fires (.importPeerCard i.pasted i.saveFailure)
    else if k.commandLetter 't' ∨ k.letter 't' then
      if a.selfCard.isSome then fires (.copyText i.copyFailure) else ignored
    else ignored
  | .connect =>
    if k.letter 'c' ∨ k.is KeyPress.RETURN then fires .connectSelected
    else if k.is KeyPress.DOWN_ARROW then fires (.movePeerSelection 1)
    else if k.is KeyPress.UP_ARROW then fires (.movePeerSelection (-1))
    else if k.is KeyPress.ESCAPE then fires .closeConnectPicker
    else ignored

/-- Shortcuts of a live session, on any screen. Peeking at an item changes only how it is shown.
They carry the command modifier, and they fire only while connected and while no text field has the
focus. -/
def handleSessionKey (a : App τ) (k : KeyPress) (i : Inputs) : KeyEffect :=
  if a.status ≠ .connected ∨ k.fieldFocused then ignored
  else if k.commandLetter 's' then fires (.sendClipboard i.clipboard)
  else if k.commandLetter 'p' then (true, none)
  else if k.commandLetter 'y' then
    if a.inbox = [] then (true, none) else fires (.copyText i.copyFailure)
  else if k.commandLetter 'o' then
    if a.outbox.isNone then (true, none) else fires (.copyText i.copyFailure)
  else if k.commandLetter 'd' then fires .queryConnPath
  else if k.commandLetter 'l' then fires .clearInbox
  else ignored

/-- Shortcuts of the screen on display. On the pairing screen they act on the PIN on display, and on
the confirmation screen the return key imports the card. -/
def handleScreenKey (a : App τ) (k : KeyPress) (i : Inputs) : KeyEffect :=
  match a.screen with
  | .home => if k.fieldFocused then ignored else a.handleConfigureKey k i
  | .cardSetup =>
    if k.fieldFocused then ignored
    else if k.letter 's' then fires .hostCardSetup
    else if k.letter 'c' then fires (.joinCardSetup i.pin i.ip i.ipLabel)
    else ignored
  | .cardPairing =>
    if a.pinDisplay.isSome ∧ (k.commandLetter 't' ∨ !k.fieldFocused ∧ k.letter 't') then
      fires (.copyText i.copyFailure)
    else if a.pinDisplay.isSome ∧ !k.fieldFocused ∧ k.letter 'r' then fires .refreshPin
    else ignored
  | .cardConfirm =>
    if k.fieldFocused then ignored
    else if k.is KeyPress.RETURN ∨ k.letter 'i' then fires (.importReceivedCard i.saveFailure)
    else if k.letter 'c' then fires .cancelReceivedCard
    else ignored
  | .session =>
    if !k.fieldFocused ∧ a.retryAvailable ∧ k.letter 'r' then fires .retryConnect else ignored

/-- Handle one key event. What lies on top is asked first: the confirmation of a reset, the list of
paths, the screen, and the session last. Escape goes back from every screen but the first, unless a
field has the focus. -/
def handleGlobalKey (a : App τ) (k : KeyPress) (i : Inputs) : KeyEffect :=
  if a.confirmResetIdentity then
    if k.is KeyPress.RETURN then fires (.resetIdentity i.fresh i.saveFailure)
    else if k.is KeyPress.ESCAPE then fires .cancelResetIdentity
    else ignored
  else if a.connPath.isSome then
    if k.is KeyPress.ESCAPE then fires .closeConnPath
    else if k.letter 'r' then fires .queryConnPath
    else ignored
  else if !k.fieldFocused ∧ a.screen ≠ .home ∧ k.is KeyPress.ESCAPE then fires .goBack
  -- on the confirmation screen nothing else fires
  else if (a.handleScreenKey k i).1 ∨ (a.screen = .cardConfirm ∧ !k.fieldFocused) then
    a.handleScreenKey k i
  else a.handleSessionKey k i

/-- A key that fires an action fires that one. -/
@[simp] lemma fires_snd {u v : UserAction} : (fires u).2 = some v ↔ u = v := by simp [fires]

/-- A key that is ignored fires none. -/
@[simp] lemma ignored_snd {v : UserAction} : ¬ ignored.2 = some v := by simp [ignored]

/-- A key of the configuration screen fires only actions that the screen offers. -/
lemma handleConfigureKey_enabled {a : App τ} {k : KeyPress} {i : Inputs} {u : UserAction}
    (hscreen : a.screen = .home) (h : (a.handleConfigureKey k i).2 = some u) : a.enabled u := by
  unfold handleConfigureKey at h
  split at h <;> split_ifs at h <;> simp only [fires_snd, ignored_snd] at h <;> subst h <;>
    simp_all [enabled]

/-- So does a key of the session screen, -/
lemma handleSessionKey_enabled {a : App τ} {k : KeyPress} {i : Inputs} {u : UserAction}
    (h : (a.handleSessionKey k i).2 = some u) : a.enabled u := by
  unfold handleSessionKey at h
  split_ifs at h <;> simp only [fires_snd, ignored_snd] at h <;> subst h <;> simp_all [enabled]

/-- and so does every other key. -/
lemma handleScreenKey_enabled {a : App τ} {k : KeyPress} {i : Inputs} {u : UserAction}
    (h : (a.handleScreenKey k i).2 = some u) : a.enabled u := by
  unfold handleScreenKey at h
  cases hscreen : a.screen with
  | home =>
    simp only [hscreen] at h
    split_ifs at h
    · simp at h
    · exact handleConfigureKey_enabled hscreen h
  | _ =>
    simp only [hscreen] at h
    split_ifs at h <;> simp only [fires_snd, ignored_snd] at h <;> subst h <;> simp_all [enabled]

/-- **A shortcut fires only what the screen offers.**

**Proof sketch.** By following the cascade of the key handlers: a question to confirm comes first,
then the list of paths, then the screen; each of them fires only its own actions. -/
theorem handleGlobalKey_enabled {a : App τ} {k : KeyPress} {i : Inputs} {u : UserAction}
    (h : (a.handleGlobalKey k i).2 = some u) : a.enabled u := by
  unfold handleGlobalKey at h
  by_cases hreset : a.confirmResetIdentity = true
  · rw [if_pos hreset] at h
    split_ifs at h <;> simp only [fires_snd, ignored_snd] at h <;> subst h <;>
      simp [enabled, hreset]
  rw [if_neg hreset] at h
  by_cases hpath : a.connPath.isSome = true
  · rw [if_pos hpath] at h
    split_ifs at h <;> simp only [fires_snd, ignored_snd] at h <;> subst h <;>
      simp [enabled, hpath]
  rw [if_neg hpath] at h
  split_ifs at h with hback
  · simp only [fires_snd] at h
    subst h
    simpa [enabled] using hback.2.1
  · exact handleScreenKey_enabled h
  · exact handleSessionKey_enabled h

/-! ## Typing -/

/-- What a key event does: whether it is consumed, the new state, and the commands it sends. -/
def pressKey (a : App τ) (w : Wall) (k : KeyPress) (i : Inputs) : Bool × App τ × List UiCommand :=
  match a.handleGlobalKey k i with
  | (consumed, some u) => (consumed, a.act w u)
  | (consumed, none) => (consumed, a, [])

/-- The key event is left alone: it is not consumed, nothing changes, and nothing is sent. -/
def LeavesKey (a : App τ) (w : Wall) (k : KeyPress) (i : Inputs) : Prop :=
  a.pressKey w k i = (false, a, [])

/-- The list of connection paths is up, and the key is the one that asks for a new list. -/
def RefreshesPaths (a : App τ) (k : KeyPress) : Prop :=
  a.confirmResetIdentity = false ∧ a.connPath.isSome = true ∧ k.letter 'r' = true

/-- A key that is ignored is left to the text field. -/
lemma leavesKey_of_ignored {a : App τ} {k : KeyPress} {i : Inputs}
    (h : a.handleGlobalKey k i = ignored) (w : Wall) : a.LeavesKey w k i := by
  simp only [LeavesKey, pressKey, h, ignored]

/-- Without the command modifier no letter is a command. -/
lemma commandLetter_eq {k : KeyPress} (h : k.command = false) (c : Char) :
    k.commandLetter c = false := by
  simp [KeyPress.commandLetter, h]

/-- No screen has a shortcut for a typed character while a text field has the focus. -/
lemma handleScreenKey_typing {a : App τ} {k : KeyPress} {i : Inputs} (hcommand : k.command = false)
    (hfocus : k.fieldFocused = true) : a.handleScreenKey k i = ignored := by
  unfold handleScreenKey
  cases a.screen with
  | home | cardSetup | cardConfirm => simp only [hfocus, if_true]
  | cardPairing => simp [hfocus, commandLetter_eq hcommand]
  | session => simp [hfocus]

/-- **Typing is left to the text field**, for every character that is typed without the command
modifier while a text field has the focus, on every screen, unless the list of connection paths is
up and the character is its refresh key.

**Proof sketch.** If the list of paths is open and nothing has to be confirmed, the key `r` is
taken. In every other case a character key without the modifier meets a test for the focus before
any shortcut, and is ignored. -/
theorem typing_not_hijacked (a : App τ) (w : Wall) (i : Inputs) {k : KeyPress} {c : Char}
    (hcommand : k.command = false) (hfocus : k.fieldFocused = true) (hkey : k.key = some c)
    (htyped : c ∉ [KeyPress.ESCAPE, KeyPress.RETURN]) :
    a.LeavesKey w k i ↔ ¬ a.RefreshesPaths k := by
  have hspecial : k.is KeyPress.ESCAPE = false ∧ k.is KeyPress.RETURN = false := by
    simp only [List.mem_cons, List.not_mem_nil, or_false, not_or] at htyped
    simp [KeyPress.is, hkey, htyped.1, htyped.2]
  constructor
  · rintro h ⟨hreset, hpath, hr⟩
    have hfires : a.handleGlobalKey k i = fires .queryConnPath := by
      simp [handleGlobalKey, hreset, hpath, hspecial, hr]
    simp [LeavesKey, pressKey, hfires, fires] at h
  · intro h
    refine leavesKey_of_ignored ?_ w
    unfold handleGlobalKey
    cases hreset : a.confirmResetIdentity with
    | true => simp [hspecial]
    | false =>
      cases hpath : a.connPath.isSome with
      | true =>
        have hr : k.letter 'r' = false := by
          rw [← Bool.not_eq_true]
          exact fun hr => h ⟨hreset, hpath, hr⟩
        simp [hspecial, hr]
      | false =>
        rw [handleScreenKey_typing hcommand hfocus]
        simp [hfocus, handleSessionKey, ignored]

section Sample

/-- A device name that is being typed, with the list of connection paths up, -/
def typingApp (paths : Option (List String)) : App Unit :=
  { App.init .lanOnly ⟨.filled 1⟩ none "a7B2c3D4" none [] with
    connPath := paths }

/-- the clock, what the surroundings hold, and the key. -/
def typingWall : Wall := ⟨5, fun _ => ""⟩

/-- The inputs of a user that is typing, -/
def typingInputs : Inputs :=
  ⟨⟨.filled 2⟩, none, "", none, none, none, .empty, "", .ok "", none, none⟩

/-- and a character key that is pressed without modifiers. -/
def typingKey (text : String) : KeyPress := ⟨text, true, false, true⟩

/-- Any other letter is left to the text field. -/
theorem typing_not_hijacked_sample :
    (typingApp (some [])).LeavesKey typingWall (typingKey "s") typingInputs ∧
    (typingApp none).LeavesKey typingWall (typingKey "r") typingInputs := by
  refine ⟨(typing_not_hijacked _ _ _ rfl rfl (show _ = some 's' by decide) (by decide)).2 ?_,
    (typing_not_hijacked _ _ _ rfl rfl (show _ = some 'r' by decide) (by decide)).2 ?_⟩
  · rintro ⟨-, -, h⟩
    revert h
    decide
  · rintro ⟨-, h, -⟩
    cases h

/-- **A typed letter asks for the connection paths.** -/
theorem typed_letter_hijacked :
    (typingKey "r").plain = true ∧ (typingKey "r").command = false ∧
    (typingKey "r").fieldFocused = true ∧ (typingKey "r").key = some 'r' ∧
    (typingApp (some [])).pressKey typingWall (typingKey "r") typingInputs =
      (true, typingApp (some []), [.queryConnPath]) ∧
    ¬ (typingApp (some [])).LeavesKey typingWall (typingKey "r") typingInputs := by
  have hpress : (typingApp (some [])).pressKey typingWall (typingKey "r") typingInputs =
      (true, typingApp (some []), [.queryConnPath]) := by decide +kernel
  refine ⟨rfl, rfl, rfl, by decide, hpress, fun h => ?_⟩
  rw [LeavesKey, hpress] at h
  cases h

end Sample

end App

end Duocb
