import Mathlib.Data.List.Basic
import Mathlib.Logic.Relation

set_option relaxedAutoImplicit false
set_option autoImplicit false

/-!
# Labelled machines

A system is given by a partial step function `step : σ → α → Option σ`: the label says which
party moves and what its environment answered, and `none` says that the label is not enabled in
that state. A run is the list of labels taken. The rules below are the only inductions over runs
that the rest of the development makes.

## Main definitions

* `Machine.exec` — run a list of labels, failing at the first one that is not enabled.
* `Machine.Reachable` — the states some run leads to.
* `Machine.Meets` — every step of a run satisfies a condition on the state before it and its
  label.
* `Machine.run` — run a list of labels of a machine whose steps put something out.
* `Machine.beside` — a machine beside a record of what it does.

## Main results

* `Machine.exec_append` — a run can be cut anywhere.
* `Machine.exec_invariant` — an invariant of one step is an invariant of a whole run, when each
  step of the run meets a condition.
* `Machine.reachable_invariant` — the same for all reachable states, with no condition.
* `Machine.length_le_of_decreases` — a run is no longer than a measure that every step makes
  smaller.
* `Machine.exists_halt` — a machine whose steps make a measure smaller comes to a halt.
* `Machine.meets_congr` — conditions that agree on the steps of a run are met together.
* `Machine.meets_of_check` — a condition that can be evaluated can be checked on a given run.
* `Machine.exists_step_of_exec` — what a run makes true becomes true in one of its steps.
* `Machine.run_invariant_of_forall` — an invariant of the state and of all that was put out so far,
  in runs whose labels meet a condition.
* `Machine.run_invariant` — the same, with no condition.
* `Machine.run_beside` — a record is kept beside every run, and does not disturb it.
-/

namespace Machine

variable {σ α : Type*} (step : σ → α → Option σ)

/-- Run the labels of a list in order, from a given state. -/
def exec : σ → List α → Option σ
  | s, [] => some s
  | s, a :: as => (step s a).bind fun s' => exec s' as

/-- `s` is reachable from `init` by some run. -/
def Reachable (init s : σ) : Prop :=
  ∃ as, exec step init as = some s

/-- Every step of the run satisfies `C`, a condition on the state before the step and its
label. A label that is not enabled ends the run. -/
def Meets (C : σ → α → Prop) : σ → List α → Prop
  | _, [] => True
  | s, a :: as => C s a ∧ ∀ s', step s a = some s' → Meets C s' as

/-- An empty run stays where it is. -/
@[simp] lemma exec_nil (s : σ) : exec step s [] = some s := rfl

/-- A run takes its first step, and goes on from the state that this leads to. -/
@[simp] lemma exec_cons (s : σ) (a : α) (as : List α) :
    exec step s (a :: as) = (step s a).bind fun s' => exec step s' as := rfl

/-- An empty run meets every condition. -/
@[simp] lemma meets_nil (C : σ → α → Prop) (s : σ) : Meets step C s [] ↔ True := Iff.rfl

/-- A run meets a condition if its first step does, and the rest of the run does from there on. -/
@[simp] lemma meets_cons (C : σ → α → Prop) (s : σ) (a : α) (as : List α) :
    Meets step C s (a :: as) ↔ C s a ∧ ∀ s', step s a = some s' → Meets step C s' as := Iff.rfl

/-- A run of `as ++ bs` is a run of `as` followed by a run of `bs`.

**Proof sketch.** By induction on the first stretch. -/
lemma exec_append (s : σ) (as bs : List α) :
    exec step s (as ++ bs) = (exec step s as).bind fun s' => exec step s' bs := by
  induction as generalizing s with
  | nil => rfl
  | cons a as ih =>
    simp only [List.cons_append, exec_cons]
    rcases step s a with _ | s'
    · rfl
    · exact ih s'

variable {step}

/-- A run of a non-empty list takes its first step and then runs the rest. -/
lemma exec_cons_eq_some {s t : σ} {a : α} {as : List α} :
    exec step s (a :: as) = some t ↔ ∃ s', step s a = some s' ∧ exec step s' as = some t := by
  simp [Option.bind_eq_some_iff]

/-- A run of two stretches runs the first, and then the second from where the first has led to. -/
lemma exec_append_eq_some {s t : σ} {as bs : List α} :
    exec step s (as ++ bs) = some t ↔
      ∃ s', exec step s as = some s' ∧ exec step s' bs = some t := by
  simp [exec_append, Option.bind_eq_some_iff]

/-- Every state is reached from itself. -/
lemma Reachable.refl (s : σ) : Reachable step s s := ⟨[], rfl⟩

/-- One more step stays reachable. -/
lemma Reachable.next {init s t : σ} (hs : Reachable step init s) {a : α}
    (ha : step s a = some t) : Reachable step init t := by
  obtain ⟨as, has⟩ := hs
  exact ⟨as ++ [a], exec_append_eq_some.2 ⟨s, has, by simp [ha]⟩⟩

/-- **The conditional invariant rule.** When each step that meets `C` keeps `I`, a whole run
whose steps all meet `C` keeps it.

**Proof sketch.** By induction on the run. The first step meets the condition at the state it is
taken in, and the rest of the run meets it from the next state on. -/
theorem exec_invariant {C : σ → α → Prop} {I : σ → Prop}
    (keep : ∀ s a s', I s → C s a → step s a = some s' → I s')
    {s t : σ} {as : List α} (hs : I s) (hC : Meets step C s as) (hrun : exec step s as = some t) :
    I t := by
  induction as generalizing s with
  | nil => simp only [exec_nil, Option.some.injEq] at hrun; exact hrun ▸ hs
  | cons a as ih =>
    obtain ⟨s', ha, hrest⟩ := exec_cons_eq_some.1 hrun
    exact ih (keep s a s' hs hC.1 ha) (hC.2 s' ha) hrest

/-- **The invariant rule.** A property of the initial state that every step keeps holds in
every reachable state. -/
theorem reachable_invariant {I : σ → Prop} {init s : σ} (hinit : I init)
    (keep : ∀ s a s', I s → step s a = some s' → I s') (hs : Reachable step init s) : I s := by
  obtain ⟨as, has⟩ := hs
  induction as generalizing init with
  | nil => simp only [exec_nil, Option.some.injEq] at has; exact has ▸ hinit
  | cons a as ih =>
    obtain ⟨s', ha, hrest⟩ := exec_cons_eq_some.1 has
    exact ih (keep init a s' hinit ha) hrest

/-- A condition that a weaker condition follows from can be replaced by it. -/
lemma Meets.mono {C D : σ → α → Prop} (h : ∀ s a, C s a → D s a) {s : σ} {as : List α}
    (hC : Meets step C s as) : Meets step D s as := by
  induction as generalizing s with
  | nil => trivial
  | cons a as ih => exact ⟨h s a hC.1, fun s' hs' => ih (hC.2 s' hs')⟩

/-- **The exchange rule.** Two conditions that agree on every step that an invariant allows are met
by the same runs.

**Proof sketch.** By induction on the run. The conditions agree on the first step, and the invariant
holds of the state behind it. -/
lemma meets_congr {C D : σ → α → Prop} {I : σ → Prop}
    (keep : ∀ s a s', I s → step s a = some s' → I s')
    (same : ∀ s a s', I s → step s a = some s' → (C s a ↔ D s a)) {s t : σ} {as : List α}
    (hs : I s) (hrun : exec step s as = some t) : Meets step C s as ↔ Meets step D s as := by
  induction as generalizing s with
  | nil => exact Iff.rfl
  | cons a as ih =>
    obtain ⟨s', ha, hrest⟩ := exec_cons_eq_some.1 hrun
    rw [meets_cons, meets_cons, same s a s' hs ha]
    refine and_congr_right fun _ => ?_
    have htail := ih (keep s a s' hs ha) hrest
    simp only [ha, Option.some.injEq, forall_eq']
    exact htail

/-- The steps of a run that is cut meet what the whole run meets. -/
lemma Meets.of_append {C : σ → α → Prop} {s t : σ} {as bs : List α}
    (h : Meets step C s (as ++ bs)) (hrun : exec step s as = some t) :
    Meets step C s as ∧ Meets step C t bs := by
  induction as generalizing s with
  | nil =>
    simp only [exec_nil, Option.some.injEq] at hrun
    exact ⟨trivial, hrun ▸ h⟩
  | cons a as ih =>
    obtain ⟨s', ha, hrest⟩ := exec_cons_eq_some.1 hrun
    refine ⟨⟨h.1, fun s'' hs'' => ?_⟩, (ih (h.2 s' ha) hrest).2⟩
    obtain rfl : s' = s'' := by rw [ha] at hs''; exact Option.some.inj hs''
    exact (ih (h.2 s' ha) hrest).1

/-- A run is extended by steps that meet the condition in turn. -/
lemma Meets.append {C : σ → α → Prop} {s t : σ} {as bs : List α} (h : Meets step C s as)
    (hrun : exec step s as = some t) (h' : Meets step C t bs) : Meets step C s (as ++ bs) := by
  induction as generalizing s with
  | nil =>
    simp only [exec_nil, Option.some.injEq] at hrun
    exact hrun ▸ h'
  | cons a as ih =>
    obtain ⟨s', ha, hrest⟩ := exec_cons_eq_some.1 hrun
    refine ⟨h.1, fun s'' hs'' => ih (h.2 s'' hs'') ?_⟩
    rw [ha] at hs''
    exact Option.some.inj hs'' ▸ hrest

/-- **The provenance rule.** What does not hold at the start of a run and holds at its end becomes
true in one of its steps.

**Proof sketch.** By induction on the run: if it does not become true in the first step, the rest of
the run begins where it does not hold. -/
theorem exists_step_of_exec {P : σ → Prop} {s t : σ} {as : List α} (hs : ¬ P s) (ht : P t)
    (hrun : exec step s as = some t) : ∃ before a after u v, as = before ++ a :: after ∧
      exec step s before = some u ∧ step u a = some v ∧ ¬ P u ∧ P v := by
  induction as generalizing s with
  | nil =>
    obtain rfl : s = t := by simpa using hrun
    exact absurd ht hs
  | cons a as ih =>
    obtain ⟨s', ha, hrest⟩ := exec_cons_eq_some.1 hrun
    by_cases hs' : P s'
    · exact ⟨[], a, as, s, s', rfl, rfl, ha, hs, hs'⟩
    · obtain ⟨before, b, after, u, v, rfl, hbefore, hb, hu, hv⟩ := ih hs' hrest
      exact ⟨a :: before, b, after, u, v, rfl, exec_cons_eq_some.2 ⟨s', ha, hbefore⟩, hb, hu, hv⟩

/-- **The termination rule.** When every step makes a measure smaller, a run is no longer than the
measure it begins with.

**Proof sketch.** By induction on the run; each step pays for itself with what the measure loses. -/
theorem length_le_of_decreases {f : σ → ℕ} (less : ∀ s a s', step s a = some s' → f s' < f s)
    {s t : σ} {as : List α} (hrun : exec step s as = some t) : as.length + f t ≤ f s := by
  induction as generalizing s with
  | nil =>
    obtain rfl : s = t := by simpa using hrun
    simp
  | cons a as ih =>
    obtain ⟨s', ha, hrest⟩ := exec_cons_eq_some.1 hrun
    have hless := less s a s' ha
    have hle := ih hrest
    rw [List.length_cons]
    omega

/-- **A machine whose steps decrease a number halts**: from every state a run leads to one that has
no step.

**Proof sketch.** By strong induction on the number: if the state has a step, the next state leads
on to one that has none. -/
theorem exists_halt {f : σ → ℕ} (less : ∀ s a s', step s a = some s' → f s' < f s) (s : σ) :
    ∃ as t, exec step s as = some t ∧ ∀ a, step t a = none := by
  induction hn : f s using Nat.strongRecOn generalizing s with
  | ind n ih =>
    by_cases hstep : ∃ a s', step s a = some s'
    · obtain ⟨a, s', hstep⟩ := hstep
      obtain ⟨as, t, hexec, hhalt⟩ := ih (f s') (hn ▸ less s a s' hstep) s' rfl
      exact ⟨a :: as, t, by rw [exec_cons, hstep]; exact hexec, hhalt⟩
    · refine ⟨[], s, rfl, fun a => ?_⟩
      cases h : step s a with
      | none => rfl
      | some s' => exact absurd ⟨a, s', h⟩ hstep

/-- Evaluate a condition along a run. -/
def check (step : σ → α → Option σ) (c : σ → α → Bool) : σ → List α → Bool
  | _, [] => true
  | s, a :: as => c s a && match step s a with
    | some s' => check step c s' as
    | none => true

/-- A condition that can be evaluated can be checked on a given run.

**Proof sketch.** By induction on the run, as the check is made. -/
lemma meets_of_check {C : σ → α → Prop} {c : σ → α → Bool} (h : ∀ s a, c s a = true → C s a)
    {s : σ} {as : List α} (hc : check step c s as = true) : Meets step C s as := by
  induction as generalizing s with
  | nil => trivial
  | cons a as ih =>
    obtain ⟨ha, hrest⟩ := Bool.and_eq_true_iff.1 hc
    refine ⟨h s a ha, fun s' hs' => ih ?_⟩
    rw [hs'] at hrest
    exact hrest

/-! ## Machines that put something out -/

section Outputs

variable {β : Type*} (loud : σ → α → Option (σ × List β))

/-- Run a list of labels, and collect what the steps put out. -/
def run : σ → List α → Option (σ × List β)
  | s, [] => some (s, [])
  | s, a :: as => (loud s a).bind fun (s', out) =>
    (run s' as).map fun (t, outs) => (t, out ++ outs)

variable {loud}

/-- An empty run stays where it is, and puts nothing out. -/
@[simp] lemma run_nil (s : σ) : run loud s [] = some (s, []) := rfl

/-- A run of a non-empty list takes its first step and then runs the rest. -/
lemma run_cons_eq_some {s t : σ} {a : α} {as : List α} {outs : List β} :
    run loud s (a :: as) = some (t, outs) ↔ ∃ s' out outs', loud s a = some (s', out) ∧
      run loud s' as = some (t, outs') ∧ outs = out ++ outs' := by
  simp only [run, Option.bind_eq_some_iff, Option.map_eq_some_iff, Prod.exists, Prod.mk.injEq]
  constructor
  · rintro ⟨s', out, ha, t', outs', hrest, rfl, rfl⟩
    exact ⟨s', out, outs', ha, hrest, rfl⟩
  · rintro ⟨s', out, outs', ha, hrest, rfl⟩
    exact ⟨s', out, ha, t, outs', hrest, rfl, rfl⟩

/-- **The conditional invariant rule with outputs.** What every step under a label that meets `C`
keeps holds after every run under such labels.

**Proof sketch.** Of a run that begins with some outputs, by induction on the run; the theorem is
the case without any. -/
theorem run_invariant_of_forall {C : α → Prop} {I : σ → List β → Prop}
    (keep : ∀ s outs a s' out, I s outs → C a → loud s a = some (s', out) → I s' (outs ++ out))
    {s t : σ} {as : List α} {outs : List β} (hs : I s []) (hC : ∀ a ∈ as, C a)
    (hrun : run loud s as = some (t, outs)) : I t outs := by
  suffices h : ∀ (as : List α) (s : σ) (before outs : List β), I s before → (∀ a ∈ as, C a) →
      run loud s as = some (t, outs) → I t (before ++ outs) by
    simpa using h as s [] outs hs hC hrun
  intro as
  induction as with
  | nil =>
    intro s before outs hs _ hrun
    obtain ⟨rfl, rfl⟩ := by simpa using hrun
    simpa using hs
  | cons a as ih =>
    intro s before outs hs hC hrun
    obtain ⟨ha, has⟩ := List.forall_mem_cons.1 hC
    obtain ⟨s', out, outs', hstep, hrest, rfl⟩ := run_cons_eq_some.1 hrun
    rw [← List.append_assoc]
    exact ih s' _ _ (keep s before a s' out hs ha hstep) has hrest

/-- **The invariant rule with outputs.** A property of the state and of what was put out so far
that every step keeps holds after every run. -/
theorem run_invariant {I : σ → List β → Prop}
    (keep : ∀ s outs a s' out, I s outs → loud s a = some (s', out) → I s' (outs ++ out))
    {s t : σ} {as : List α} {outs : List β} (hs : I s []) (hrun : run loud s as = some (t, outs)) :
    I t outs :=
  run_invariant_of_forall (C := fun _ => True) (fun s outs a s' out h _ => keep s outs a s' out h)
    hs (fun _ _ => trivial) hrun

/-- A run whose outputs are not listened to. -/
lemma exec_of_run {s t : σ} {as : List α} {outs : List β} (h : run loud s as = some (t, outs)) :
    exec (fun s a => (loud s a).map Prod.fst) s as = some t := by
  induction as generalizing s outs with
  | nil =>
    obtain ⟨rfl, rfl⟩ := by simpa using h
    rfl
  | cons a as ih =>
    obtain ⟨s', out, outs', ha, hrest, rfl⟩ := run_cons_eq_some.1 h
    exact exec_cons_eq_some.2 ⟨s', by rw [ha]; rfl, ih hrest⟩

/-! ### A record beside a machine -/

section Record

variable {γ : Type*} (loud) (record : γ → σ → α → List β → γ)

/-- A machine beside a record, which sees each step: the state before it, its label, and what it
puts out. -/
def beside (s : σ × γ) (a : α) : Option ((σ × γ) × List β) :=
  (loud s.1 a).map fun (s', out) => ((s', record s.2 s.1 a out), out)

variable {loud record}

/-- The inversion rule of a machine beside a record.

**Proof sketch.** The step is that of the machine, and the record is computed from it. -/
lemma beside_eq_some {s s' : σ × γ} {a : α} {out : List β} :
    beside loud record s a = some (s', out) ↔
      loud s.1 a = some (s'.1, out) ∧ s'.2 = record s.2 s.1 a out := by
  obtain ⟨t, g⟩ := s'
  constructor
  · intro h
    obtain ⟨⟨t', out'⟩, hstep, hres⟩ := Option.map_eq_some_iff.1 h
    obtain ⟨he, rfl⟩ := Prod.mk.inj hres
    obtain ⟨rfl, rfl⟩ := Prod.mk.inj he
    exact ⟨hstep, rfl⟩
  · rintro ⟨hstep, hg⟩
    unfold beside
    rw [hstep]
    subst hg
    rfl

/-- **A record is kept beside every run**, and the run is the same with it.

**Proof sketch.** By induction on the run: whatever the record is, the next one is computed from it
and from the step. -/
lemma run_beside {s t : σ} {as : List α} {outs : List β} (h : run loud s as = some (t, outs))
    (g : γ) : ∃ g', run (beside loud record) (s, g) as = some ((t, g'), outs) := by
  induction as generalizing s outs g with
  | nil =>
    obtain ⟨rfl, rfl⟩ := by simpa using h
    exact ⟨g, rfl⟩
  | cons a as ih =>
    obtain ⟨s', out, outs', ha, hrest, rfl⟩ := run_cons_eq_some.1 h
    obtain ⟨g', hg'⟩ := ih hrest (record g s a out)
    have hstep : beside loud record (s, g) a = some ((s', record g s a out), out) :=
      beside_eq_some.2 ⟨ha, rfl⟩
    exact ⟨g', run_cons_eq_some.2 ⟨_, out, outs', hstep, hg', rfl⟩⟩

end Record

end Outputs

end Machine
