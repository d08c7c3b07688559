import Mathlib.Data.List.Induction
import Mathlib.Data.List.InsertIdx

set_option relaxedAutoImplicit false
set_option autoImplicit false

/-!
# The lists on the screen

The window shows three lists: the trusted peers, the inbox, and the paths of the connection. Each
sync computes all rows of a list anew, compares them with the rows that are there, and tells the
window only what differs. The window keeps an element for each row, and the element keeps what the
user is about to do with it, so an element should stay where its row stays.

The window is drawn by a toolkit, which is a parameter here. What its documentation says of the
changes of a list is `Duocb.Window.Lawful`: the results hold for every window that reacts so.

## Main definitions

* `Duocb.diffedModel` — one sync of a list: the rows that are there then, and what the window is
  told.
* `Duocb.Window`, `Duocb.Window.Lawful` — a window that shows a list, and how it has to react.
* `Duocb.Window.repeater` — a window that keeps its elements in a list, and reacts so.
* `Duocb.RowList`, `Duocb.RowList.sync` — a list with the window that shows it.
* `Duocb.keepMade` — what the elements should be: each stays as long as there is a row for it.

## Main results

* `Duocb.Window.repeater_lawful` — there is such a window.
* `Duocb.RowList.sync_elements` — what the window is told makes the elements what they should be.
* `Duocb.RowList.rows_follow` — what is shown after any syncs, and for how long each element stays.
-/

namespace Duocb

variable {α ω : Type}

/-- What a list tells the window that shows it. The window hears of single rows that are removed,
added or changed, so that the elements of the other rows live on. -/
inductive RowChange (α : Type) where
  /-- Another list is to be shown. -/
  | reset (rows : List α)
  | removed (i : ℕ)
  /-- A row is there after all others. -/
  | added (row : α)
  | changed (i : ℕ) (row : α)
  deriving DecidableEq

/-! ## One sync of a list -/

/-- Rows are removed until no more than so many are left. -/
def trimRows (n : ℕ) (vec : List α) : List α × List (RowChange α) :=
  if n < vec.length then
    let r := trimRows n (vec.eraseIdx n)
    (r.1, .removed n :: r.2)
  else (vec, [])
termination_by vec.length
decreasing_by
  rw [List.length_eraseIdx]
  split <;> omega

variable [DecidableEq α]

/-- Rows are pushed, or set where they differ, from an index on. A row that is equal to the one in
its place is left alone, and the window hears nothing of it. -/
def fillRows (i : ℕ) (vec : List α) : List α → List α × List (RowChange α)
  | [] => (vec, [])
  | row :: rows =>
    if vec.length ≤ i then
      let r := fillRows (i + 1) (vec ++ [row]) rows
      (r.1, .added row :: r.2)
    else if vec[i]? ≠ some row then
      let r := fillRows (i + 1) (vec.set i row) rows
      (r.1, .changed i row :: r.2)
    else fillRows (i + 1) vec rows

/-- One sync of a list, which has no rows of its own before the first one. Rows that are too many
are dropped from the end first; then the others are filled in from the front. -/
def diffedModel (current : Option (List α)) (rows : List α) : List α × List (RowChange α) :=
  match current with
  | none => (rows, [.reset rows])
  | some vec =>
    let trimmed := trimRows rows.length vec
    let filled := fillRows 0 trimmed.1 rows
    (filled.1, trimmed.2 ++ filled.2)

/-! ## The window -/

/-- An element of the window: the sync in which it was made, and the row that it shows. -/
structure RowElement (α : Type) where
  made : ℕ
  row : α
  deriving DecidableEq

/-- A window that is told of the changes of a list. The window is drawn by code of a toolkit, so its
state is any type: all that is looked at is the elements that it shows. -/
structure Window (α ω : Type) where
  /-- The window before it is told of any list. -/
  init : ω
  /-- What becomes of the window when it is told of a change, in the sync of the given number. -/
  tell : ℕ → ω → RowChange α → ω
  /-- The elements that the window shows. -/
  elements : ω → List (RowElement α)

/-- What the toolkit documents of a window that shows a list. A new list gets new elements; a row
that is removed takes its element with it; a row that is added behind the others gets a new element;
and a row that is set is shown by the element that is there. Nothing is said of a row that is not
there. -/
structure Window.Lawful (W : Window α ω) : Prop where
  init : W.elements W.init = []
  reset : ∀ n w rows, W.elements (W.tell n w (.reset rows)) = rows.map (RowElement.mk n)
  removed : ∀ n w i, i < (W.elements w).length →
    W.elements (W.tell n w (.removed i)) = (W.elements w).eraseIdx i
  added : ∀ n w row, W.elements (W.tell n w (.added row)) = W.elements w ++ [⟨n, row⟩]
  changed : ∀ n w i row, i < (W.elements w).length →
    W.elements (W.tell n w (.changed i row)) =
      (W.elements w).modify i fun e => { e with row := row }

/-- What a list of elements becomes with a change. The elements that it makes carry the number of
the sync. A changed row stays in its element. -/
def RowChange.follow (n : ℕ) (elements : List (RowElement α)) :
    RowChange α → List (RowElement α)
  | .reset rows => rows.map (RowElement.mk n)
  | .removed i => elements.eraseIdx i
  | .added row => elements ++ [⟨n, row⟩]
  | .changed i row => elements.modify i fun e => { e with row := row }

/-- A window that keeps its elements in a list, and repeats the changes on that list. -/
def Window.repeater : Window α (List (RowElement α)) := ⟨[], RowChange.follow, id⟩

omit [DecidableEq α] in
/-- The repeater reacts as documented. -/
theorem Window.repeater_lawful : (repeater : Window α (List (RowElement α))).Lawful where
  init := rfl
  reset _ _ _ := rfl
  removed _ _ _ _ := rfl
  added _ _ _ := rfl
  changed _ _ _ _ _ := rfl

/-- The elements that should be there: one for each row, and an element stays as long as there is a
row for it. -/
def keepMade (n : ℕ) : List (RowElement α) → List α → List (RowElement α)
  | _, [] => []
  | [], row :: rows => ⟨n, row⟩ :: keepMade n [] rows
  | e :: elements, row :: rows => ⟨e.made, row⟩ :: keepMade n elements rows

/-- A list with the window that shows it, and how many syncs there were. -/
structure RowList (α ω : Type) where
  model : Option (List α)
  window : ω
  syncs : ℕ

namespace RowList

/-- A sync with new rows: the rows that are there are replaced, and the window is told of the
changes one after the other. -/
def sync (W : Window α ω) (l : RowList α ω) (rows : List α) : RowList α ω :=
  let r := diffedModel l.model rows
  ⟨some r.1, r.2.foldl (W.tell l.syncs) l.window, l.syncs + 1⟩

/-- A list after syncs with these rows. -/
def after (W : Window α ω) (history : List (List α)) : RowList α ω :=
  history.foldl (sync W) ⟨none, W.init, 0⟩

end RowList

/-! ## What a sync does -/

section Sync

variable {W : Window α ω} {row x : α}

/-- Behind the last row, a row is pushed. -/
lemma fillRows_push (vec : List α) (row : α) (rows : List α) :
    fillRows vec.length vec (row :: rows) =
      ((fillRows (vec.length + 1) (vec ++ [row]) rows).1,
        .added row :: (fillRows (vec.length + 1) (vec ++ [row]) rows).2) := by
  rw [fillRows, if_pos (Nat.le_refl _)]

/-- A row that is there already is left alone. -/
lemma fillRows_same (before after : List α) (row : α) (rows : List α) :
    fillRows before.length (before ++ row :: after) (row :: rows) =
      fillRows (before.length + 1) (before ++ row :: after) rows := by
  rw [fillRows, if_neg (by simp), if_neg (by simp)]

/-- Another one is set. -/
lemma fillRows_set (before after : List α) (h : x ≠ row) (rows : List α) :
    fillRows before.length (before ++ x :: after) (row :: rows) =
      ((fillRows (before.length + 1) (before ++ row :: after) rows).1,
        .changed before.length row ::
          (fillRows (before.length + 1) (before ++ row :: after) rows).2) := by
  rw [fillRows, if_neg (by simp), if_pos (by simpa using h),
    List.set_append_right _ _ (Nat.le_refl _), Nat.sub_self, List.set_cons_zero]

omit [DecidableEq α] in
/-- An element behind others is set. -/
lemma modify_behind (done elements : List (RowElement α)) (e : RowElement α)
    (f : RowElement α → RowElement α) :
    (done ++ e :: elements).modify done.length f = done ++ f e :: elements := by
  induction done with
  | nil => rfl
  | cons d done ih => simpa using ih

omit [DecidableEq α] in
/-- What is removed is what is beyond, of the rows and of the elements.

**Proof sketch.** By induction on the number of elements. As long as there are more than `k`, the
row behind the first `k` is removed, and its element with it. -/
lemma trimRows_follow (hW : W.Lawful) (n k : ℕ) (w : ω) :
    (trimRows k ((W.elements w).map RowElement.row)).1 =
        ((W.elements w).take k).map RowElement.row ∧
      W.elements ((trimRows k ((W.elements w).map RowElement.row)).2.foldl (W.tell n) w) =
        (W.elements w).take k := by
  induction hlength : (W.elements w).length using Nat.strongRecOn generalizing w with
  | ind length ih =>
    subst hlength
    rw [trimRows, List.length_map]
    split_ifs with hk
    · have hremoved := hW.removed n w k hk
      have herase : (W.elements (W.tell n w (.removed k))).length < (W.elements w).length := by
        rw [hremoved, List.length_eraseIdx_of_lt hk]
        omega
      obtain ⟨hrows, hfollow⟩ := ih _ herase (W.tell n w (.removed k)) rfl
      rw [hremoved, List.take_eraseIdx_eq_take_of_le _ _ _ (Nat.le_refl _), ← List.eraseIdx_map]
        at hrows hfollow
      exact ⟨hrows, hfollow⟩
    · rw [List.take_of_length_le (Nat.not_lt.1 hk)]
      exact ⟨rfl, rfl⟩

/-- What is pushed and set makes the rows, and the elements stay where there are some.

**Proof sketch.** By induction on the rows that are left. What is done stands before the elements
that are left, so each row meets the first of them. -/
lemma fillRows_follow (hW : W.Lawful) (n : ℕ) (done elements : List (RowElement α)) (rows : List α)
    {w : ω} (hw : W.elements w = done ++ elements) (hlength : elements.length ≤ rows.length) :
    (fillRows done.length ((done ++ elements).map RowElement.row) rows).1 =
        done.map RowElement.row ++ rows ∧
      W.elements ((fillRows done.length ((done ++ elements).map RowElement.row) rows).2.foldl
        (W.tell n) w) = done ++ keepMade n elements rows := by
  induction rows generalizing done elements w with
  | nil =>
    obtain rfl := List.eq_nil_of_length_eq_zero (Nat.le_zero.1 hlength)
    simp [fillRows, keepMade, hw]
  | cons row rows ih =>
    cases elements with
    | nil =>
      have hpush := fillRows_push (done.map RowElement.row) row rows
      have hadded := hW.added n w row
      rw [hw, List.append_nil] at hadded
      have hnext := ih (done ++ [⟨n, row⟩]) [] (by rw [hadded, List.append_nil]) (Nat.zero_le _)
      rw [List.length_map] at hpush
      rw [List.append_nil, hpush]
      simpa [keepMade] using hnext
    | cons e elements =>
      have hnext := @ih (done ++ [⟨e.made, row⟩]) elements
      rw [List.map_append, List.map_cons]
      by_cases he : e.row = row
      · have hsame := fillRows_same (done.map RowElement.row) (elements.map RowElement.row) row rows
        have hkept := @hnext w (by rw [hw, ← he]; simp) (Nat.le_of_succ_le_succ hlength)
        rw [List.length_map] at hsame
        rw [he, hsame]
        subst he
        simpa [keepMade] using hkept
      · have hset := fillRows_set (done.map RowElement.row) (elements.map RowElement.row) he rows
        have hchanged := hW.changed n w done.length row (by rw [hw]; simp)
        rw [hw, modify_behind] at hchanged
        have hkept := hnext (by rw [hchanged]; simp) (Nat.le_of_succ_le_succ hlength)
        rw [List.length_map] at hset
        rw [hset]
        simpa [keepMade] using hkept

omit [DecidableEq α] in
/-- Elements beyond the rows do not matter. -/
lemma keepMade_take (n : ℕ) (elements : List (RowElement α)) (rows : List α) :
    keepMade n (elements.take rows.length) rows = keepMade n elements rows := by
  induction rows generalizing elements with
  | nil => simp [keepMade]
  | cons row rows ih =>
    cases elements with
    | nil => rfl
    | cons e elements => rw [List.length_cons, List.take_succ_cons, keepMade, keepMade, ih]

omit [DecidableEq α] in
/-- The element of a row is the one that was there, or a new one.

**Proof sketch.** By induction on the rows, along the elements. -/
lemma keepMade_getElem? (n : ℕ) (elements : List (RowElement α)) (rows : List α) (i : ℕ) :
    (keepMade n elements rows)[i]? =
      rows[i]?.map fun row => ⟨(elements[i]?.map RowElement.made).getD n, row⟩ := by
  induction rows generalizing elements i with
  | nil => simp [keepMade]
  | cons row rows ih =>
    cases elements with
    | nil =>
      cases i with
      | zero => rfl
      | succ i => simpa [keepMade] using ih [] i
    | cons e elements =>
      cases i with
      | zero => rfl
      | succ i => simpa [keepMade] using ih elements i

omit [DecidableEq α] in
/-- The elements show the rows. -/
lemma map_row_keepMade (n : ℕ) (elements : List (RowElement α)) (rows : List α) :
    (keepMade n elements rows).map RowElement.row = rows := by
  refine List.ext_getElem? fun i => ?_
  rw [List.getElem?_map, keepMade_getElem?, Option.map_map]
  cases rows[i]? <;> rfl

omit [DecidableEq α] in
/-- Removing rows changes none. -/
lemma changed_notMem_trimRows (k i : ℕ) (row : α) (vec : List α) :
    .changed i row ∉ (trimRows k vec).2 := by
  induction hlength : vec.length using Nat.strongRecOn generalizing vec with
  | ind length ih =>
    subst hlength
    rw [trimRows]
    split_ifs with hk
    · have herase : (vec.eraseIdx k).length < vec.length := by
        rw [List.length_eraseIdx_of_lt hk]
        omega
      simpa using ih _ herase (vec.eraseIdx k) rfl
    · exact List.not_mem_nil

omit [DecidableEq α] in
/-- Two lists differ at their heads, or behind them.

**Proof sketch.** By the index of the place where they differ: it is the head, or the next one. -/
lemma exists_differ_cons {x next : α} {rest rows : List α} {row : α} {b i : ℕ} :
    (∃ j y, i = b + j ∧ (x :: rest)[j]? = some y ∧ (next :: rows)[j]? = some row ∧ y ≠ row) ↔
      (i = b ∧ row = next ∧ x ≠ next) ∨
        ∃ j y, i = b + 1 + j ∧ rest[j]? = some y ∧ rows[j]? = some row ∧ y ≠ row := by
  constructor
  · rintro ⟨j, y, rfl, hy, hrow, hne⟩
    cases j with
    | zero =>
      obtain rfl := Option.some.inj hy
      obtain rfl := Option.some.inj hrow
      exact Or.inl ⟨rfl, rfl, hne⟩
    | succ j => exact Or.inr ⟨j, y, by omega, hy, hrow, hne⟩
  · rintro (⟨rfl, rfl, hne⟩ | ⟨j, y, rfl, hy, hrow, hne⟩)
    · exact ⟨0, x, rfl, rfl, rfl, hne⟩
    · exact ⟨j + 1, y, by omega, hy, hrow, hne⟩

/-- A row is set just where another one was.

**Proof sketch.** By induction on the rows, along those that are there. What is pushed sets nothing,
and a row that is equal is passed over. -/
lemma changed_mem_fillRows (before rest rows : List α) (i : ℕ) (row : α) :
    .changed i row ∈ (fillRows before.length (before ++ rest) rows).2 ↔
      ∃ j x, i = before.length + j ∧ rest[j]? = some x ∧ rows[j]? = some row ∧ x ≠ row := by
  induction rows generalizing before rest with
  | nil => simp [fillRows]
  | cons next rows ih =>
    cases rest with
    | nil =>
      have hnext := ih (before ++ [next]) []
      rw [List.append_nil, List.length_append] at hnext
      rw [List.append_nil, fillRows_push]
      simpa using hnext
    | cons x rest =>
      have hnext := ih (before ++ [next]) rest
      rw [List.append_assoc, List.singleton_append, List.length_append,
        List.length_singleton] at hnext
      rw [exists_differ_cons]
      by_cases hx : x = next
      · subst hx
        rw [fillRows_same, hnext]
        simp
      · rw [fillRows_set _ _ hx, List.mem_cons, hnext]
        simp [hx]

end Sync

namespace RowList

variable {W : Window α ω} {l : RowList α ω} {rows : List α}

/-- The elements that the window of a list shows. -/
def elements (W : Window α ω) (l : RowList α ω) : List (RowElement α) := W.elements l.window

/-- The elements of a list show its rows. -/
def Shows (W : Window α ω) (l : RowList α ω) : Prop :=
  (l.elements W).map RowElement.row = l.model.getD []

/-- **What the window is told** keeps the elements where there are rows for them, and makes the
others.

**Proof sketch.** The first sync makes all elements, of which there were none. A later one removes
what is beyond the rows, and then pushes and sets. -/
theorem sync_elements (hW : W.Lawful) (h : l.Shows W) (rows : List α) :
    (l.sync W rows).model = some rows ∧
      (l.sync W rows).elements W = keepMade l.syncs (l.elements W) rows := by
  obtain ⟨model, w, syncs⟩ := l
  cases model with
  | none =>
    have hnone : W.elements w = [] := List.map_eq_nil_iff.1 h
    have hnew : keepMade syncs [] rows = rows.map (RowElement.mk syncs) := by
      refine List.ext_getElem? fun i => ?_
      rw [keepMade_getElem?, List.getElem?_map]
      rfl
    simp [sync, elements, diffedModel, hW.reset, hnone, hnew]
  | some vec =>
    obtain rfl : (W.elements w).map RowElement.row = vec := h
    obtain ⟨htrimmed, hkept⟩ := trimRows_follow hW syncs rows.length w
    obtain ⟨hfilled, hshown⟩ := fillRows_follow hW syncs [] ((W.elements w).take rows.length) rows
      hkept (List.length_take_le _ _)
    rw [List.length_nil, List.nil_append] at hfilled hshown
    rw [List.map_nil, List.nil_append] at hfilled
    rw [List.nil_append, keepMade_take] at hshown
    simp only [sync, elements, diffedModel, List.foldl_append, htrimmed]
    exact ⟨by rw [hfilled], hshown⟩

/-- What is known of a list after syncs. The list has the rows of the last sync, the window shows
them, and each element was made at the first of the syncs since which its place has been filled. -/
structure Inv (W : Window α ω) (l : RowList α ω) (history : List (List α)) : Prop where
  model : l.model = history.getLast?
  shows : l.Shows W
  syncs : l.syncs = history.length
  /-- An element was made when its row came to be there, and there has been one ever since. -/
  made : ∀ i e, (l.elements W)[i]? = some e → e.made < history.length ∧
    (∀ rows ∈ history.drop e.made, i < rows.length) ∧
    ∀ rows, (history.take e.made).getLast? = some rows → rows.length ≤ i

/-- A sync keeps it.

**Proof sketch.** An element with an old one at its place was made when that one was, and the list
has reached its place ever since. A new one was made just now, and the list did not reach its place
before. -/
lemma Inv.sync {history : List (List α)} (hW : W.Lawful) (h : l.Inv W history) (rows : List α) :
    (l.sync W rows).Inv W (history ++ [rows]) := by
  obtain ⟨hmodel, helements⟩ := sync_elements hW h.shows rows
  refine ⟨by simp [hmodel], ?_, by simp [RowList.sync, h.syncs], fun i e he => ?_⟩
  · rw [Shows, hmodel, helements, map_row_keepMade]
    rfl
  · have hkeep : rows[i]?.map (fun row =>
        RowElement.mk (((l.elements W)[i]?.map RowElement.made).getD l.syncs) row) = some e := by
      rw [← keepMade_getElem?, ← helements]
      exact he
    obtain ⟨row, hrow, rfl⟩ := Option.map_eq_some_iff.1 hkeep
    have hi : i < rows.length := (List.getElem?_eq_some_iff.1 hrow).1
    cases hold : (l.elements W)[i]? with
    | some e' =>
      obtain ⟨hmade, hsince, hbefore⟩ := h.made i e' hold
      rw [List.length_append, Option.map_some, Option.getD_some,
        List.drop_append_of_le_length (Nat.le_of_lt hmade),
        List.take_append_of_le_length (Nat.le_of_lt hmade)]
      refine ⟨Nat.lt_succ_of_lt hmade, fun r hr => ?_, hbefore⟩
      rcases List.mem_append.1 hr with hr | hr
      · exact hsince r hr
      · rwa [List.mem_singleton.1 hr]
    | none =>
      rw [Option.map_none, Option.getD_none, h.syncs, List.length_append, List.drop_left,
        List.take_left]
      refine ⟨Nat.lt_succ_self _, fun r hr => by rwa [List.mem_singleton.1 hr], fun r hr => ?_⟩
      have hlength := congrArg List.length h.shows
      rw [h.model, hr, List.length_map] at hlength
      rw [List.getElem?_eq_none_iff] at hold
      exact hlength ▸ hold

/-- It is known after any syncs. -/
lemma inv_after (hW : W.Lawful) (history : List (List α)) : (after W history).Inv W history := by
  induction history using List.reverseRecOn with
  | nil =>
    have hnone : (after W ([] : List (List α))).elements W = [] := hW.init
    exact ⟨rfl, by rw [Shows, hnone]; rfl, rfl, by simp [hnone]⟩
  | append_singleton history rows ih =>
    rw [after, List.foldl_append]
    exact ih.sync hW rows

/-- **The lists on the screen follow the state**, in every window that reacts as documented. After
any syncs, the window shows the rows of the last one, one element for each. An element was made in
the first of the syncs since which the list has always reached its place, so that it stays as long
as there is a row there. And the next sync sets an element anew if and only if its row is another
one.

**Proof sketch.** By induction on the syncs; each keeps the elements where there are rows. -/
theorem rows_follow (hW : W.Lawful) (history : List (List α)) :
    (after W history).model = history.getLast? ∧
    ((after W history).elements W).map RowElement.row = history.getLast?.getD [] ∧
    (∀ i e, ((after W history).elements W)[i]? = some e → e.made < history.length ∧
      (∀ rows ∈ history.drop e.made, i < rows.length) ∧
      ∀ rows, (history.take e.made).getLast? = some rows → rows.length ≤ i) ∧
    ∀ rows i row, .changed i row ∈ (diffedModel (after W history).model rows).2 ↔
      ∃ e, ((after W history).elements W)[i]? = some e ∧ rows[i]? = some row ∧ e.row ≠ row := by
  have hinv := inv_after hW history
  have hshows : ((after W history).elements W).map RowElement.row =
      (after W history).model.getD [] := hinv.shows
  refine ⟨hinv.model, hinv.model ▸ hshows, hinv.made, fun rows i row => ?_⟩
  cases hmodel : (after W history).model with
  | none =>
    rw [hmodel] at hshows
    have hnil : (after W history).elements W = [] := List.map_eq_nil_iff.1 hshows
    simp [diffedModel, hnil]
  | some vec =>
    rw [hmodel, Option.getD_some] at hshows
    have htrimmed := (trimRows_follow hW 0 rows.length (after W history).window).1
    have hchanged := changed_mem_fillRows [] (vec.take rows.length) rows i row
    change (trimRows rows.length (((after W history).elements W).map RowElement.row)).1 =
      (((after W history).elements W).take rows.length).map RowElement.row at htrimmed
    rw [hshows, List.map_take, hshows] at htrimmed
    simp only [diffedModel, htrimmed, List.mem_append, changed_notMem_trimRows, false_or]
    rw [List.nil_append, List.length_nil] at hchanged
    rw [hchanged]
    constructor
    · rintro ⟨j, x, rfl, hx, hrow, hne⟩
      rw [Nat.zero_add]
      rw [List.getElem?_take_of_lt (List.getElem?_eq_some_iff.1 hrow).1, ← hshows,
        List.getElem?_map, Option.map_eq_some_iff] at hx
      obtain ⟨e, he, rfl⟩ := hx
      exact ⟨e, he, hrow, hne⟩
    · rintro ⟨e, he, hrow, hne⟩
      refine ⟨i, e.row, (Nat.zero_add i).symm, ?_, hrow, hne⟩
      rw [List.getElem?_take_of_lt (List.getElem?_eq_some_iff.1 hrow).1, ← hshows,
        List.getElem?_map, he, Option.map_some]

/-- The repeater after a list of two, a list of one and a list of two: the first element stayed and
was set anew, and the second one was made in the last sync. -/
theorem rows_follow_sample :
    (after Window.repeater [["a", "b"], ["a"], ["c", "b"]]).elements Window.repeater =
      [⟨0, "c"⟩, ⟨2, "b"⟩] ∧
    ((after Window.repeater [["a", "b"], ["a"], ["c", "b"]]).elements Window.repeater).map
      RowElement.row = ["c", "b"] ∧
    (RowChange.changed 0 "d" ∈ (diffedModel
        (after Window.repeater [["a", "b"], ["a"], ["c", "b"]]).model ["d", "b"]).2 ↔
      ∃ e, ((after Window.repeater [["a", "b"], ["a"], ["c", "b"]]).elements
        Window.repeater)[0]? = some e ∧ ["d", "b"][0]? = some "d" ∧ e.row ≠ "d") := by
  obtain ⟨-, hrows, -, hchanged⟩ :=
    rows_follow Window.repeater_lawful [["a", "b"], ["a"], ["c", "b"]]
  exact ⟨by decide +kernel, hrows, hchanged ["d", "b"] 0 "d"⟩

end RowList

end Duocb
