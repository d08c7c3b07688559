import Mathlib.Data.List.Basic
import Mathlib.Order.Nat

set_option relaxedAutoImplicit false
set_option autoImplicit false

/-!
# A sender that can send its last item again

A sender takes items one by one, writes each, and remembers the last one it has written in full.
The channel to the receiver can be cut at any moment, which loses what is on its way and what is
being written; when it is opened again, the receiver may ask for the last item once more. The items
of the first kind are written at most once and in order, and those of the second kind are never
older than what came before them.

The histories name each item by its position among the items the sender took.

## Main definitions

* `Resend.Lane` — the sender, what is on its way, and what the receiver has seen.
* `Resend.Move` — everything that can happen to a lane.
* `Resend.Inv` — what the positions on the wire have to do with what was written.
* `Resend.Kept` — nothing the sender took was lost in the middle of its write.

## Main results

* `Resend.Inv.move` — every move keeps the invariant.
* `Resend.Inv.first_sublist` — what is seen for the first time is an in-order subsequence of what
  was taken, without repetition.
* `Resend.Inv.between` — between an item and the same item sent again there is nothing else.
* `Resend.Inv.seen_iff_sent` — at an item that was sent again, the newest item the sender took
  before it was seen if and only if it had been written.
* `Resend.Kept.move`, `Resend.Inv.newest` — while no write is cut, it always had.
-/

namespace Resend

/-- An item on its way: its position among the items the sender took, the item, whether it is sent
again, and how many items the sender had taken when it wrote this one. -/
structure Entry (α : Type*) where
  tag : ℕ
  item : α
  again : Bool
  upTo : ℕ
  deriving DecidableEq

/-- What the sender is in the middle of writing. -/
inductive Pen (α : Type*) where
  | idle
  | first (a : α)
  | again (a : α)

/-- One direction of a channel: the items the sender took, the positions of those it has written,
the last of these, what it is writing, what the receiver has seen, and what is on its way. -/
structure Lane (α : Type*) where
  taken : List α
  sent : List ℕ
  last : Option α
  pen : Pen α
  seen : List (Entry α)
  wire : List (Entry α)

variable {α : Type*} {ok small : α → Prop}

/-- The entries that were written and not lost, oldest first. -/
def Lane.all (l : Lane α) : List (Entry α) := l.seen ++ l.wire

/-- Nothing was taken yet. -/
def Lane.init : Lane α := ⟨[], [], none, .idle, [], []⟩

/-- **Everything that can happen to a lane**, where `ok` items can be written and `small` ones can
be written again. -/
inductive Move (ok small : α → Prop) (l : Lane α) : Lane α → Prop where
  | take (a : α) (hp : l.pen = .idle) (ha : ok a) :
      Move ok small l { l with taken := l.taken ++ [a], pen := .first a }
  | refuse (a : α) (hp : l.pen = .idle) (ha : ¬ ok a) :
      Move ok small l { l with taken := l.taken ++ [a] }
  | sent (a : α) (hp : l.pen = .first a) :
      Move ok small l
        { l with
          sent := l.sent ++ [l.taken.length - 1]
          last := some a
          pen := .idle
          wire := l.wire ++ [⟨l.taken.length - 1, a, false, l.taken.length⟩] }
  | answer (a : α) (hp : l.pen = .idle) (hl : l.last = some a) (ha : small a) :
      Move ok small l { l with pen := .again a }
  | resent (a : α) (hp : l.pen = .again a) :
      Move ok small l
        { l with
          pen := .idle
          wire := l.wire ++ [⟨l.sent.getLastD 0, a, true, l.taken.length⟩] }
  /-- The write in progress is given up. -/
  | cut : Move ok small l { l with pen := .idle }
  /-- The sender starts afresh. -/
  | forget : Move ok small l { l with pen := .idle, last := none }
  /-- Some of what is on its way is lost. -/
  | lose (w : List (Entry α)) (hw : w.Sublist l.wire) : Move ok small l { l with wire := w }
  | see (e : Entry α) (w : List (Entry α)) (hw : l.wire = e :: w) :
      Move ok small l { l with seen := l.seen ++ [e], wire := w }

/-- `a` may come before `b`: an item that is written for the first time is newer than all that came
before it, and one that is written again is not older. -/
def Before (a b : Entry α) : Prop := a.tag ≤ b.tag ∧ (b.again = false → a.tag < b.tag)

/-- An entry carries the item at its position, which was written; one that was written again is the
newest that had been written then. -/
structure Sound (small : α → Prop) (l : Lane α) (e : Entry α) : Prop where
  mem : e.tag ∈ l.sent
  item : l.taken[e.tag]? = some e.item
  lt : e.tag < e.upTo
  le : e.upTo ≤ l.taken.length
  newest : e.again = true → small e.item ∧ ∀ i ∈ l.sent, i < e.upTo → i ≤ e.tag

/-- The invariant of a lane. What was sent is sorted and lies among what was taken. The pen holds
the item that was taken last, or the one that was sent last. Of what has arrived or is under way,
each says what was sent, in order. -/
structure Inv (ok small : α → Prop) (l : Lane α) : Prop where
  sorted : l.sent.Pairwise (· < ·)
  below : ∀ i ∈ l.sent, i < l.taken.length
  good : ∀ i ∈ l.sent, ∀ a, l.taken[i]? = some a → ok a
  last : ∀ a, l.last = some a → ∃ i, l.sent.getLast? = some i ∧ l.taken[i]? = some a
  first : ∀ a, l.pen = .first a → l.taken.getLast? = some a ∧ ok a ∧
    (∀ i ∈ l.sent, i + 1 < l.taken.length) ∧ ∀ e ∈ l.all, e.upTo < l.taken.length
  again : ∀ a, l.pen = .again a → l.last = some a ∧ small a
  order : l.all.Pairwise Before
  sound : ∀ e ∈ l.all, Sound small l e

/-- A lane on which nothing was taken yet is in order. -/
lemma Inv.init : Inv ok small (Lane.init : Lane α) where
  sorted := List.Pairwise.nil
  below := by simp [Lane.init]
  good := by simp [Lane.init]
  last := by simp [Lane.init]
  first := by simp [Lane.init]
  again := by simp [Lane.init]
  order := List.Pairwise.nil
  sound := by simp [Lane.init, Lane.all]

/-- The last element of a strictly increasing list is its greatest. -/
lemma le_of_getLast? {is : List ℕ} (h : is.Pairwise (· < ·)) {n : ℕ} (hn : is.getLast? = some n) :
    ∀ i ∈ is, i ≤ n := by
  obtain ⟨ks, rfl⟩ := List.getLast?_eq_some_iff.1 hn
  intro i hi
  rcases List.mem_append.1 hi with hi | hi
  · exact (List.pairwise_append.1 h).2.2 i hi n (List.mem_singleton_self n) |>.le
  · exact (List.mem_singleton.1 hi).le

/-- Fewer entries, or a pen that writes no first item, keep the invariant.

**Proof sketch.** Clause by clause: what is taken, sent and last is as before, and the entries are
some of those before. -/
lemma Inv.of_sublist {l l' : Lane α} (h : Inv ok small l) (ht : l'.taken = l.taken)
    (hs : l'.sent = l.sent) (hl : ∀ a, l'.last = some a → l.last = some a)
    (hf : ∀ a, l'.pen = .first a → l.pen = .first a)
    (ha : ∀ a, l'.pen = .again a → l'.last = some a ∧ small a)
    (hall : l'.all.Sublist l.all) : Inv ok small l' where
  sorted := by rw [hs]; exact h.sorted
  below := by rw [hs, ht]; exact h.below
  good := by rw [hs, ht]; exact h.good
  last a h' := by rw [hs, ht]; exact h.last a (hl a h')
  first a h' := by
    obtain ⟨h1, h2, h3, h4⟩ := h.first a (hf a h')
    rw [hs, ht]
    exact ⟨h1, h2, h3, fun e he => h4 e (hall.subset he)⟩
  again := ha
  order := h.order.sublist hall
  sound e he := by
    obtain ⟨h1, h2, h3, h4, h5⟩ := h.sound e (hall.subset he)
    constructor
    · rw [hs]; exact h1
    · rw [ht]; exact h2
    · exact h3
    · rw [ht]; exact h4
    · rw [hs]; exact h5

/-- One more item is taken. -/
lemma Sound.take {l l' : Lane α} {e : Entry α} {a : α} (h : Sound small l e)
    (hs : l'.sent = l.sent) (ht : l'.taken = l.taken ++ [a]) : Sound small l' e := by
  have hlt : e.tag < l.taken.length := h.lt.trans_le h.le
  constructor
  · rw [hs]; exact h.mem
  · rw [ht, List.getElem?_append_left hlt]; exact h.item
  · exact h.lt
  · rw [ht, List.length_append]; exact h.le.trans (by simp)
  · rw [hs]; exact h.newest

/-- Taking an item keeps a lane in order, as long as it changes nothing but the items taken and the
pen.

**Proof sketch.** Everything that was sent was taken before, so it stands at the same index as
before; the new item stands behind them all. -/
lemma Inv.take {l l' : Lane α} {a : α} (h : Inv ok small l) (hs : l'.sent = l.sent)
    (ht : l'.taken = l.taken ++ [a]) (hl : l'.last = l.last) (hall : l'.all = l.all)
    (hf : ∀ b, l'.pen = .first b → b = a ∧ ok b) (ha : ∀ b, l'.pen ≠ .again b) :
    Inv ok small l' where
  sorted := by rw [hs]; exact h.sorted
  below i hi := by
    rw [hs] at hi
    rw [ht, List.length_append]
    exact (h.below i hi).trans (by simp)
  good i hi b hb := by
    rw [hs] at hi
    rw [ht, List.getElem?_append_left (h.below i hi)] at hb
    exact h.good i hi b hb
  last b hb := by
    rw [hl] at hb
    obtain ⟨i, hi, hib⟩ := h.last b hb
    refine ⟨i, by rw [hs]; exact hi, ?_⟩
    rw [ht, List.getElem?_append_left (h.below i (List.mem_of_getLast? hi))]
    exact hib
  first b hb := by
    obtain ⟨rfl, hok⟩ := hf b hb
    refine ⟨by simp [ht], hok, fun i hi => ?_, fun e he => ?_⟩
    · rw [hs] at hi
      have := h.below i hi
      simp only [ht, List.length_append, List.length_singleton]
      omega
    · rw [hall] at he
      have := (h.sound e he).le
      simp only [ht, List.length_append, List.length_singleton]
      omega
  again b hb := absurd hb (ha b)
  order := by rw [hall]; exact h.order
  sound e he := by
    rw [hall] at he
    exact (h.sound e he).take hs ht

/-- **Every move keeps the invariant.**

**Proof sketch.** A first item is the newest that was taken, so its position is beyond all that was
written before; an item that is written again is at the last position that was written. Losing and
seeing entries leaves a sublist of them, in the same order. -/
theorem Inv.move {l l' : Lane α} (h : Inv ok small l) (hm : Move ok small l l') :
    Inv ok small l' := by
  cases hm with
  | take a hp ha =>
    refine h.take rfl rfl rfl rfl ?_ ?_
    · rintro b hb
      cases hb
      exact ⟨rfl, ha⟩
    · intro b hb
      cases hb
  | refuse a hp ha =>
    refine h.take rfl rfl rfl rfl ?_ ?_
    · intro b hb
      rw [show l.pen = _ from hb] at hp
      cases hp
    · intro b hb
      rw [show l.pen = _ from hb] at hp
      cases hp
  | sent a hp =>
    obtain ⟨hlast, hok, hbelow, hupTo⟩ := h.first a hp
    have hne : 0 < l.taken.length := by
      rcases List.getLast?_eq_some_iff.1 hlast with ⟨ks, hks⟩
      simp [hks]
    have hget : l.taken[l.taken.length - 1]? = some a := by
      rw [← List.getLast?_eq_getElem?]
      exact hlast
    have hsorted : (l.sent ++ [l.taken.length - 1]).Pairwise (· < ·) := by
      rw [List.pairwise_append]
      refine ⟨h.sorted, List.pairwise_singleton _ _, fun i hi j hj => ?_⟩
      have := hbelow i hi
      rw [List.mem_singleton.1 hj]
      omega
    have hold : ∀ e ∈ l.all, Sound small
        { l with
          sent := l.sent ++ [l.taken.length - 1]
          last := some a
          pen := .idle
          wire := l.wire ++ [⟨l.taken.length - 1, a, false, l.taken.length⟩] } e := by
      intro e he
      obtain ⟨h1, h2, h3, h4, h5⟩ := h.sound e he
      refine ⟨List.mem_append_left _ h1, h2, h3, h4, fun hag => ⟨(h5 hag).1, fun i hi hlt => ?_⟩⟩
      rcases List.mem_append.1 hi with hi | hi
      · exact (h5 hag).2 i hi hlt
      · have := hupTo e he
        rw [List.mem_singleton.1 hi] at hlt
        omega
    constructor
    · exact hsorted
    · intro i hi
      rcases List.mem_append.1 hi with hi | hi
      · exact h.below i hi
      · have := List.mem_singleton.1 hi
        show i < l.taken.length
        omega
    · intro i hi b hb
      rcases List.mem_append.1 hi with hi | hi
      · exact h.good i hi b hb
      · rw [List.mem_singleton.1 hi] at hb
        obtain rfl : a = b := Option.some.inj (hget.symm.trans hb)
        exact hok
    · rintro b hb
      cases hb
      exact ⟨l.taken.length - 1, by simp, hget⟩
    · rintro b hb
      cases hb
    · rintro b hb
      cases hb
    · show ((l.seen ++ (l.wire ++ [_])).Pairwise Before)
      rw [← List.append_assoc, List.pairwise_append]
      refine ⟨h.order, List.pairwise_singleton _ _, fun e he e' he' => ?_⟩
      rw [List.mem_singleton.1 he']
      have := hbelow _ (h.sound e he).mem
      constructor
      · show e.tag ≤ l.taken.length - 1
        omega
      · intro _
        show e.tag < l.taken.length - 1
        omega
    · intro e he
      have he' : e ∈ l.all ++ [⟨l.taken.length - 1, a, false, l.taken.length⟩] := by
        simpa [Lane.all, List.append_assoc] using he
      rcases List.mem_append.1 he' with he' | he'
      · exact hold e he'
      · rw [List.mem_singleton.1 he']
        refine ⟨by simp, hget, ?_, le_refl _, by simp⟩
        show l.taken.length - 1 < l.taken.length
        omega
  | answer a hp hl ha =>
    refine h.of_sublist rfl rfl (fun _ => id) ?_ ?_ (List.Sublist.refl _)
    · intro b hb
      cases hb
    · intro b hb
      cases hb
      exact ⟨hl, ha⟩
  | resent a hp =>
    obtain ⟨hlast, hsmall⟩ := h.again a hp
    obtain ⟨n, hn, hget⟩ := h.last a hlast
    have hmax := le_of_getLast? h.sorted hn
    have hD : l.sent.getLastD 0 = n := by
      rw [List.getLastD_eq_getLast?, hn]
      rfl
    have hmem : n ∈ l.sent := List.mem_of_getLast? hn
    constructor
    · exact h.sorted
    · exact h.below
    · exact h.good
    · exact h.last
    · rintro b hb
      cases hb
    · rintro b hb
      cases hb
    · show ((l.seen ++ (l.wire ++ [_])).Pairwise Before)
      rw [← List.append_assoc, List.pairwise_append]
      refine ⟨h.order, List.pairwise_singleton _ _, fun e he e' he' => ?_⟩
      rw [List.mem_singleton.1 he', hD]
      exact ⟨hmax _ (h.sound e he).mem, fun hf => by cases hf⟩
    · intro e he
      have he' : e ∈ l.all ++ [⟨l.sent.getLastD 0, a, true, l.taken.length⟩] := by
        simpa [Lane.all, List.append_assoc] using he
      rcases List.mem_append.1 he' with he' | he'
      · obtain ⟨h1, h2, h3, h4, h5⟩ := h.sound e he'
        exact ⟨h1, h2, h3, h4, h5⟩
      · rw [List.mem_singleton.1 he', hD]
        exact ⟨hmem, hget, h.below n hmem, le_refl _, fun _ => ⟨hsmall, fun i hi _ => hmax i hi⟩⟩
  | cut =>
    refine h.of_sublist rfl rfl (fun _ => id) ?_ ?_ (List.Sublist.refl _)
    · intro b hb
      cases hb
    · intro b hb
      cases hb
  | forget =>
    refine h.of_sublist rfl rfl ?_ ?_ ?_ (List.Sublist.refl _)
    · intro b hb
      cases hb
    · intro b hb
      cases hb
    · intro b hb
      cases hb
  | lose w hw =>
    refine h.of_sublist rfl rfl (fun _ => id) (fun _ => id) h.again ?_
    exact (List.Sublist.refl l.seen).append hw
  | see e w hw =>
    refine h.of_sublist rfl rfl (fun _ => id) (fun _ => id) h.again ?_
    simp [Lane.all, hw]

/-! ## What is seen for the first time -/

/-- Elements at strictly increasing positions form a sublist.

**Proof sketch.** The positions are strictly increasing, so that the elements there are a sublist,
by the rule for lists of indices. -/
lemma sublist_of_positions {xs : List α} {es : List (Entry α)}
    (hs : es.Pairwise fun a b => a.tag < b.tag) (hx : ∀ e ∈ es, xs[e.tag]? = some e.item) :
    (es.map Entry.item).Sublist xs := by
  have hlt : ∀ e ∈ es, e.tag < xs.length := fun e he => (List.getElem?_eq_some_iff.1 (hx e he)).1
  have hmap : es.attach.map Subtype.val = es := List.attach_map_subtype_val es
  have key : es.map Entry.item =
      (es.attach.map fun e => (⟨e.1.tag, hlt e.1 e.2⟩ : Fin xs.length)).map (xs[·]) := by
    rw [List.map_map]
    conv_lhs => rw [← hmap, List.map_map]
    refine List.map_congr_left fun e _ => ?_
    exact ((List.getElem?_eq_some_iff.1 (hx e.1 e.2)).2).symm
  rw [key]
  apply List.map_getElem_sublist
  rw [List.pairwise_map]
  rw [← hmap, List.pairwise_map] at hs
  exact hs

/-- The entries that were seen for the first time. -/
def Lane.firsts (l : Lane α) : List (Entry α) := l.seen.filter fun e => !e.again

/-- The positions of what is seen for the first time are strictly increasing. -/
lemma Inv.firsts_sorted {l : Lane α} (h : Inv ok small l) :
    l.firsts.Pairwise fun a b => a.tag < b.tag := by
  have hseen : l.seen.Pairwise Before := (List.pairwise_append.1 h.order).1
  refine (hseen.sublist List.filter_sublist).imp_of_mem fun _ hb hab => hab.2 ?_
  simpa using (List.mem_filter.1 hb).2

/-- **What is seen for the first time is an in-order subsequence of what was taken, without
repetition.** -/
theorem Inv.first_sublist {l : Lane α} (h : Inv ok small l) :
    (l.firsts.map Entry.item).Sublist l.taken := by
  refine sublist_of_positions h.firsts_sorted fun e he => ?_
  exact (h.sound e (List.mem_append_left _ (List.mem_filter.1 he).1)).item

/-- **Between an item and the same item sent again there is nothing else.**

**Proof sketch.** The entries are in order, so the tags between the two lie between theirs, and are
the same. An entry that repeats a tag is one that was sent again, and repeats the item. -/
theorem Inv.between {l : Lane α} (h : Inv ok small l) {p m q : List (Entry α)} {a b : Entry α}
    (hseen : l.seen = p ++ a :: m ++ b :: q) (htag : a.tag = b.tag) :
    ∀ e ∈ m ++ [b], e.item = a.item ∧ e.again = true := by
  have hord : (p ++ a :: m ++ b :: q).Pairwise Before := hseen ▸ (List.pairwise_append.1 h.order).1
  have hsound : ∀ e ∈ p ++ a :: m ++ b :: q, Sound small l e := fun e he =>
    h.sound e (List.mem_append_left _ (hseen ▸ he))
  have hab : (a :: m ++ [b]).Pairwise Before := by
    refine hord.sublist ?_
    have h1 : (a :: m ++ [b]).Sublist (a :: m ++ b :: q) := by simp
    rw [List.append_assoc]
    exact h1.trans (List.sublist_append_right p _)
  obtain ⟨hafter, hrest⟩ := List.pairwise_cons.1 hab
  intro e he
  have hae := hafter e he
  have heb : e.tag ≤ b.tag := by
    rcases List.mem_append.1 he with hem | heb
    · exact ((List.pairwise_append.1 hrest).2.2 e hem b (List.mem_singleton_self b)).1
    · exact (congrArg Entry.tag (List.mem_singleton.1 heb)).le
  have htag' : e.tag = a.tag := by
    have := hae.1
    omega
  constructor
  · have h1 := (hsound e (by
      rcases List.mem_append.1 he with hem | heb'
      · simp [hem]
      · simp [List.mem_singleton.1 heb'])).item
    have h2 := (hsound a (by simp)).item
    rw [htag', h2] at h1
    exact (Option.some.inj h1).symm
  · by_contra hag
    have := hae.2 (by simpa using hag)
    omega

/-! ## The newest item -/

/-- `j` is the position of the newest of the first `n` items that can be written and written
again. -/
structure Newest (ok small : α → Prop) (taken : List α) (n j : ℕ) : Prop where
  lt : j < n
  fits : ∃ a, taken[j]? = some a ∧ ok a ∧ small a
  last : ∀ i a, j < i → i < n → taken[i]? = some a → ok a → ¬ small a

/-- What was sent again is the newest item if and only if that had been written. -/
lemma Inv.again_eq_iff {l : Lane α} (h : Inv ok small l) {e : Entry α} (he : e ∈ l.all)
    (ha : e.again = true) {j : ℕ}
    (hj : Newest ok small l.taken e.upTo j) : e.tag = j ↔ j ∈ l.sent := by
  have hs := h.sound e he
  constructor
  · rintro rfl
    exact hs.mem
  · intro hmem
    have hle : j ≤ e.tag := (hs.newest ha).2 j hmem hj.lt
    by_contra hne
    exact hj.last e.tag e.item (by omega) hs.lt hs.item (h.good _ hs.mem _ hs.item)
      (hs.newest ha).1

/-- **At an item that was sent again, the newest item the sender took before it was seen if and
only if it had been written.** -/
theorem Inv.seen_iff_sent {l : Lane α} (h : Inv ok small l) {e : Entry α} (he : e ∈ l.seen)
    (ha : e.again = true) {j : ℕ}
    (hj : Newest ok small l.taken e.upTo j) : (∃ e' ∈ l.seen, e'.tag = j) ↔ j ∈ l.sent := by
  constructor
  · rintro ⟨e', he', rfl⟩
    exact (h.sound e' (List.mem_append_left _ he')).mem
  · intro hmem
    exact ⟨e, he, (h.again_eq_iff (List.mem_append_left _ he) ha hj).2 hmem⟩

/-- Every item that can be written and written again was written, or is being written. -/
def Kept (ok small : α → Prop) (l : Lane α) : Prop :=
  ∀ i a, l.taken[i]? = some a → ok a → small a →
    i ∈ l.sent ∨ l.pen = .first a ∧ i + 1 = l.taken.length

/-- On a lane on which nothing was taken yet, nothing has to be kept. -/
lemma Kept.init : Kept ok small (Lane.init : Lane α) := by
  intro i a h
  simp [Lane.init] at h

/-- The move gives up the write of an item that can be written again. -/
def Loses (small : α → Prop) (l l' : Lane α) : Prop :=
  l'.sent = l.sent ∧ ∃ a, l.pen = .first a ∧ small a ∧ l'.pen = .idle

/-- A step that takes and sends nothing keeps what has to be kept, as long as it leaves a small item
at the pen. -/
lemma Kept.of_same {l l' : Lane α} (h : Kept ok small l) (ht : l'.taken = l.taken)
    (hs : l'.sent = l.sent) (hp : ∀ a, l.pen = .first a → small a → l'.pen = .first a) :
    Kept ok small l' := by
  intro i a hi hok hsm
  rw [ht] at hi
  rcases h i a hi hok hsm with hmem | ⟨hpen, hlen⟩
  · left
    rw [hs]
    exact hmem
  · right
    rw [ht]
    exact ⟨hp a hpen hsm, hlen⟩

/-- Taking an item keeps what has to be kept, if an item that may be sent is what the pen writes
next.

**Proof sketch.** An item that was there is kept as before, and the new one is in the pen if it may
be sent. -/
lemma Kept.take {l l' : Lane α} {a : α} (h : Kept ok small l) (hp : l.pen = .idle)
    (hs : l'.sent = l.sent) (ht : l'.taken = l.taken ++ [a]) (hok : ok a → l'.pen = .first a) :
    Kept ok small l' := by
  intro i b hi hb hsm
  rw [ht] at hi
  rcases lt_or_ge i l.taken.length with hlt | hge
  · rw [List.getElem?_append_left hlt] at hi
    rcases h i b hi hb hsm with hmem | ⟨hpen, -⟩
    · left
      rw [hs]
      exact hmem
    · rw [hp] at hpen
      cases hpen
  · right
    obtain ⟨hlt, hget⟩ := List.getElem?_eq_some_iff.1 hi
    rw [List.length_append, List.length_singleton] at hlt
    obtain rfl : i = l.taken.length := by omega
    obtain rfl : a = b := by simpa using hget
    exact ⟨hok hb, by simp [ht]⟩

/-- A move that gives up no write loses nothing.

**Proof sketch.** By cases on the move. A move that ends a write either sends what was written or
gives it up, and the latter loses something. -/
lemma Kept.move {l l' : Lane α} (h : Kept ok small l) (hm : Move ok small l l')
    (hloss : ¬ Loses small l l') : Kept ok small l' := by
  have hpen : ∀ a, l'.sent = l.sent → l.pen = .first a → small a → l'.pen ≠ .idle :=
    fun a hs hp hsm hi => hloss ⟨hs, a, hp, hsm, hi⟩
  cases hm with
  | take a hp ha => exact h.take hp rfl rfl fun _ => rfl
  | refuse a hp ha => exact h.take hp rfl rfl fun hok => absurd hok ha
  | sent a hp =>
    intro i b hi hb hsm
    left
    rcases h i b hi hb hsm with hmem | ⟨-, hlen⟩
    · exact List.mem_append_left _ hmem
    · refine List.mem_append_right _ ?_
      rw [List.mem_singleton]
      omega
  | answer a hp hl ha =>
    refine h.of_same rfl rfl fun b hb => ?_
    rw [hp] at hb
    cases hb
  | resent a hp =>
    refine h.of_same rfl rfl fun b hb => ?_
    rw [hp] at hb
    cases hb
  | cut => exact h.of_same rfl rfl fun b hb hsm => absurd rfl (hpen b rfl hb hsm)
  | forget => exact h.of_same rfl rfl fun b hb hsm => absurd rfl (hpen b rfl hb hsm)
  | lose w hw => exact h.of_same rfl rfl fun _ hb _ => hb
  | see e w hw => exact h.of_same rfl rfl fun _ hb _ => hb

/-- **While no write is cut, what is sent again is the newest item the sender took.**

**Proof sketch.** The newest item that fits was either sent, or is being written. What is sent again
was taken by the time an item was sent, so in the second case an older one would be newest. -/
theorem Inv.newest {l : Lane α} (h : Inv ok small l) (hk : Kept ok small l) {e : Entry α}
    (he : e ∈ l.all) (ha : e.again = true) {j : ℕ}
    (hj : Newest ok small l.taken e.upTo j) : e.tag = j := by
  obtain ⟨a, hget, hoka, hsm⟩ := hj.fits
  refine (h.again_eq_iff he ha hj).2 ?_
  rcases hk j a hget hoka hsm with hmem | ⟨hpen, hlen⟩
  · exact hmem
  · -- the item being written was taken after every entry was written
    have := (h.first a hpen).2.2.2 e he
    have := hj.lt
    omega

end Resend
