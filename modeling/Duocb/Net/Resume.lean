import Duocb.App
import Duocb.Net.Link

set_option relaxedAutoImplicit false
set_option autoImplicit false

/-!
# What a resumed link delivers

A link is cut and opened again any number of times. What one end surfaces, and what its inbox makes
of it, is compared with what the other end's writer took off its clip channel.

## Main definitions

* `Duocb.Link.Surfaced` — the other end has surfaced a text that was taken.
* `Duocb.Link.ResumeDelivers` — at an answered pull, the newest text has been surfaced.

## Main results

* `Duocb.Link.resume_delivers` — it has if and only if its item had been written in full, and in a
  run that cuts no write it always has.
* `Duocb.Link.resume_loses` — a text whose write is cut is lost, and an older one is served as the
  latest.
* `Duocb.Link.no_duplication` — items are surfaced in order and once, a re-delivery is the last item
  that was written, and the inbox does not take it twice.
-/

namespace Duocb.Link

/-! ## The newest item -/

/-- The other end has surfaced the `j`-th text that `x` took. -/
def Surfaced (s : Link) (x : Side) (j : ℕ) : Prop :=
  ∃ g ∈ (s.ends x.other).got, g.tag = j ∧ (s.ends x).taken[j]? = some g.item

/-- An entry at a position carries the text that was taken there. -/
lemma surfaced_iff {s : Link} {x : Side} (hs : Good s x) {j : ℕ} :
    Surfaced s x j ↔ ∃ g ∈ (s.ends x.other).got, g.tag = j := by
  refine exists_congr fun g => and_congr_right fun hg => and_iff_left_of_imp ?_
  rintro rfl
  exact (hs.inv.sound g (List.mem_append_left _ hg)).item

/-- **Resume delivers the newest item.** In every run, once a pull has been answered and the answer
surfaced, the last text the sender had taken by then that fits, both as an item and as a
re-delivery, has been surfaced. -/
def ResumeDelivers : Prop :=
  ∀ (ls : List LinkLabel) (s : Link), Machine.exec step .init ls = some s →
    ∀ (x : Side), ∀ g ∈ (s.ends x.other).got, g.again = true →
      ∀ j, Resend.Newest ok small (s.ends x).taken g.upTo j → Surfaced s x j

/-- **What a resumed link delivers.** At an answered pull the newest text has been surfaced if and
only if its item had been written in full; in a run in which no step cuts the write of an item, it
has, and it is the text that the answer carries.

**Proof sketch.** The lanes of a link are good in every run, so that a pull resends the newest item
that was written in full. A run that cuts no write has written all that it took. -/
theorem resume_delivers {ls : List LinkLabel} {s : Link}
    (hrun : Machine.exec step .init ls = some s) (x : Side) {g : Got}
    (hg : g ∈ (s.ends x.other).got) (hpulled : g.again = true) {j : ℕ}
    (hj : Resend.Newest ok small (s.ends x).taken g.upTo j) :
    (Surfaced s x j ↔ j ∈ (s.ends x).sent) ∧
      (Machine.Meets step (fun s l => ¬ Cuts s l) .init ls → Surfaced s x j ∧ g.tag = j) := by
  have hgood : Good s x := reachable_inv ⟨ls, hrun⟩ x
  rw [surfaced_iff hgood]
  refine ⟨hgood.inv.seen_iff_sent hg hpulled hj, fun hcut => ?_⟩
  have htag : g.tag = j :=
    hgood.inv.newest (exec_kept hrun hcut x) (List.mem_append_left _ hg) hpulled hj
  exact ⟨⟨g, hg, htag⟩, htag⟩

/-- One connection is opened and both ends pump it. -/
def connect (conn : ℕ) : List LinkLabel := [.dial, .accept conn, .establish]

/-- The host writes its pull and one text in full. -/
def sendFirst : List LinkLabel :=
  [.send .host "a", .send .host "b", .pump .host .written, .pump .host (.takeItem 1),
    .pump .host .written]

/-- The dialer pulls, and the host answers with the last text it sent. -/
def resume : List LinkLabel :=
  [.pump .dialer .written, .deliver .host, .pump .host .written, .pump .host .takePull,
    .pump .host .written, .deliver .dialer, .deliver .dialer]

/-- The host's second text is taken, and its write is cut when the link breaks. -/
def cutRun : List LinkLabel :=
  connect 1 ++ sendFirst ++ [.pump .host (.takeItem 2), .drop .dialer, .drop .host] ++ connect 2 ++
    resume

/-- The host's second text is written before the link breaks. -/
def keptRun : List LinkLabel :=
  connect 1 ++ sendFirst ++
    [.pump .host (.takeItem 2), .pump .host .written, .drop .dialer, .drop .host] ++ connect 2 ++
    resume

/-- **A text whose write is cut is lost.** The host took `"b"` and was cut while writing it; the
dialer, connected again, is served `"a"` as the latest.

**Proof sketch.** The run is computed. The text that was cut is the newest one that the host has
taken, and what the dialer is served is the one before. -/
theorem resume_loses : ¬ ResumeDelivers := by
  intro h
  have hrun : (Machine.exec step .init cutRun).map
      (fun s => ((s.ends .dialer).got, (s.ends .host).taken)) =
        some ([⟨0, ("a", 1), true, 2⟩], [("a", 1), ("b", 2)]) := by decide +kernel
  obtain ⟨s, hs, hst⟩ := Option.map_eq_some_iff.1 hrun
  obtain ⟨hgot, htaken⟩ := Prod.mk.inj hst
  have hnewest : Resend.Newest ok small (s.ends .host).taken 2 1 := by
    rw [htaken]
    exact ⟨by decide, ⟨_, rfl, by decide +kernel, by decide +kernel⟩, fun i a h1 h2 => by omega⟩
  obtain ⟨g, hg, htag, -⟩ := h cutRun s hs .host ⟨0, ("a", 1), true, 2⟩
    (by rw [show Side.host.other = .dialer from rfl, hgot]; exact List.mem_singleton_self _) rfl 1
    hnewest
  rw [show Side.host.other = .dialer from rfl, hgot, List.mem_singleton] at hg
  subst hg
  cases htag

/-- With both writes done, the newest text is what the answer carries.

**Proof sketch.** The run is computed, and each of its steps is found to cut nothing. -/
theorem resume_delivers_sample : ∃ s : Link, Machine.exec step .init keptRun = some s ∧
    Surfaced s .host 1 := by
  have hrun : (Machine.exec step .init keptRun).map
      (fun s => ((s.ends .dialer).got, (s.ends .host).taken)) =
        some ([⟨1, ("b", 2), true, 2⟩], [("a", 1), ("b", 2)]) := by decide +kernel
  obtain ⟨s, hs, hst⟩ := Option.map_eq_some_iff.1 hrun
  obtain ⟨hgot, htaken⟩ := Prod.mk.inj hst
  have hnewest : Resend.Newest ok small (s.ends .host).taken 2 1 := by
    rw [htaken]
    exact ⟨by decide, ⟨_, rfl, by decide +kernel, by decide +kernel⟩, fun i a h1 h2 => by omega⟩
  have hcut : Machine.Meets step (fun s l => ¬ Cuts s l) .init keptRun :=
    Machine.meets_of_check not_cuts_of_cutsNothing (by decide +kernel)
  exact ⟨s, hs, ((resume_delivers hs .host
    (show (⟨1, ("b", 2), true, 2⟩ : Got) ∈ (s.ends .dialer).got by
      rw [hgot]; exact List.mem_singleton_self _) rfl hnewest).2 hcut).1⟩

/-! ## No duplication -/

/-- **No duplication and no reordering.** In every run: what one end surfaces as items is an
in-order subsequence, without repetition, of the texts the other end's writer took; what it
surfaces as a re-delivery is the last item the other end had written in full when it answered the
pull; and once an application received a text as its peer's newest item, a later re-delivery of
that item leaves its inbox as it is, whatever the inbox held and whatever else the application did,
short of a Clear or a change of peer.

**Proof sketch.** The first two parts are the invariant of the lanes. For the third one, whatever
was surfaced between an item and its repetition is the same item served again, so the newest text of
the inbox is that of the repetition, which is not taken. -/
theorem no_duplication {τ : Type} {ls : List LinkLabel} {s : Link}
    (hrun : Machine.exec step .init ls = some s) (x : Side) :
    ((((s.ends x).got.filter fun g => !g.again).map fun g => g.item.1).Sublist
        ((s.ends x.other).taken.map Prod.fst) ∧
      ((s.ends x).got.filter fun g => !g.again).Pairwise fun a b => a.tag < b.tag) ∧
    (∀ g ∈ (s.ends x).got, g.again = true → g.tag ∈ (s.ends x.other).sent ∧
      (s.ends x.other).taken[g.tag]? = some g.item ∧
      ∀ i ∈ (s.ends x.other).sent, i < g.upTo → i ≤ g.tag) ∧
    ∀ (before after : List Got) (a g : Got), (s.ends x).got = before ++ g :: after → a ∈ before →
      a.tag = g.tag → ∀ (peer : PublicKey) (app app' : App τ) (steps : List (App.Step τ)),
        App.received steps = before.map (fun g => (g.item.1, g.again)) →
        Machine.exec App.step app steps = some app' →
        Machine.Meets App.step (App.Keeps peer) app steps →
        ∀ now : τ, (app'.applyEvent now (.itemReceived g.item.1 g.again)).inbox = app'.inbox := by
  have hinv : Resend.Inv ok small (s.lane x.other) := (reachable_inv ⟨ls, hrun⟩ x.other).inv
  have hseen : (s.lane x.other).seen = (s.ends x).got := by simp [lane]
  refine ⟨⟨?_, ?_⟩, ?_, ?_⟩
  · have hsub := hinv.first_sublist.map Prod.fst
    rw [List.map_map, Resend.Lane.firsts, hseen] at hsub
    exact hsub
  · simpa [Resend.Lane.firsts, hseen] using hinv.firsts_sorted
  · intro g hg hagain
    have hs := hinv.sound g (List.mem_append_left _ (hseen ▸ hg))
    exact ⟨hs.mem, hs.item, (hs.newest hagain).2⟩
  · intro before after a g hgot ha htag peer app app' steps hreceived happ hkeep now
    obtain ⟨p, m, rfl⟩ := List.append_of_mem ha
    have hbetween := hinv.between (p := p) (m := m) (q := after)
      (by rw [hseen, hgot, List.append_assoc]) htag
    obtain ⟨hitem, hagain⟩ := hbetween g (by simp)
    have hlast : (App.received steps).getLast?.map Prod.fst = some g.item.1 := by
      rw [hreceived, ← List.getLast?_map, List.map_map, hitem]
      rcases List.eq_nil_or_concat m with rfl | ⟨m', e, rfl⟩
      · simp
      · have he := (hbetween e (by simp)).1
        rw [List.concat_eq_append, ← List.cons_append, ← List.append_assoc, List.map_append,
          List.getLast?_append]
        simp [he]
    obtain ⟨⟨text, pulled⟩, hl, rfl⟩ := Option.map_eq_some_iff.1 hlast
    rw [hagain, App.applyEvent_pulled (App.mem_inbox_of_last happ hkeep hl)]

/-- The dialer surfaces the host's only text, loses the link, and is served it again. -/
def againRun : List LinkLabel :=
  connect 1 ++ [.send .host "a", .pump .host .written, .pump .host (.takeItem 1),
    .pump .host .written, .deliver .dialer, .deliver .dialer, .drop .dialer, .drop .host] ++
    connect 2 ++ resume

/-- A text that was received is served again, and the inbox does not take it twice.

**Proof sketch.** The run is computed, and the theorem is applied to the second time the text is
surfaced. -/
theorem no_duplication_sample : ∃ (s : Link) (app : App Unit),
    Machine.exec step .init againRun = some s ∧
      (((s.ends .dialer).got.filter fun g => !g.again).map fun g => g.item.1).Sublist
        ((s.ends .host).taken.map Prod.fst) ∧
      (app.applyEvent () (.itemReceived "a" true)).inbox = app.inbox := by
  have hrun : (Machine.exec step .init againRun).map (fun s => (s.ends .dialer).got) =
      some [⟨0, ("a", 1), false, 1⟩, ⟨0, ("a", 1), true, 1⟩] := by decide +kernel
  obtain ⟨s, hs, hgot⟩ := Option.map_eq_some_iff.1 hrun
  let me : PublicKey := .filled 0
  let app : App Unit := .init .lanOnly ⟨me⟩ none "a7B2c3D4" none []
  obtain ⟨⟨hsub, -⟩, -, hbox⟩ := no_duplication (τ := Unit) hs .dialer
  exact ⟨s, app.applyEvent () (.itemReceived "a" false), hs, hsub,
    hbox [⟨0, ("a", 1), false, 1⟩] [] ⟨0, ("a", 1), false, 1⟩ ⟨0, ("a", 1), true, 1⟩ hgot
      (List.mem_singleton_self _) rfl me app _ [.event () (.itemReceived "a" false)] rfl rfl
      ⟨trivial, fun _ _ => trivial⟩ ()⟩

end Duocb.Link
