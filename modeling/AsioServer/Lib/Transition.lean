/-
AsioServer.Lib.Transition — runs of a partial labelled step function.

A system is a function `step : σ → α → Option σ`. The label carries every
choice the environment makes, so a step is deterministic once its label is
known, and `none` says that the label is not enabled in the state. `run`
executes a list of labels, `Reachable` is what a run from an initial state can
arrive at.

Two predicates speak about a run as a whole. `AllSteps P s as` says that every
step the run takes satisfies `P` (state before, label, state after), and
`AllStates Q s as` that every state it passes through satisfies `Q`. The rules
of this module reduce statements about runs to statements about one step:

* `Reachable.invariant`: an inductive invariant holds of every reachable state;
* `run_invariant`: the same along one run whose steps all meet a side
  condition;
* `run_view`: when every step is a run of another system, seen through a view of the
  state, every run is one;
* `length_le_of_effort`: when every step costs some effort and only some labels
  bring effort back, a run is not longer than the effort it started with and
  what its labels brought back;
* `allSteps_of_growth`: what grows by one at most in every step stays below a bound in a
  run that is too short to reach it;
* `allSteps_congr` and `allStates_iff_allSteps`: an equivalence that holds of
  single steps, under an invariant, holds of whole runs.

A system may hold a list of smaller ones that step one at a time. `Advances` says that
each of them went through a run of its own, so that what they keep is kept by all of
them (`Advances.invariant`).

Nothing here names a program. Structural induction throughout.
-/
import Mathlib.Algebra.GroupWithZero.Nat
import Mathlib.Data.List.Basic

namespace AsioServer.Lib

variable {σ α : Type*}

/-! ## Runs -/

/-- Execute the labels in order; `none` when one of them is not enabled. -/
def run (step : σ → α → Option σ) : σ → List α → Option σ
  | s, [] => some s
  | s, a :: as => (step s a).bind fun t => run step t as

@[simp] theorem run_nil (step : σ → α → Option σ) (s : σ) : run step s [] = some s := rfl

@[simp] theorem run_cons (step : σ → α → Option σ) (s : σ) (a : α) (as : List α) :
    run step s (a :: as) = (step s a).bind fun t => run step t as := rfl

theorem run_singleton (step : σ → α → Option σ) (s : σ) (a : α) :
    run step s [a] = step s a := by
  simp only [run_cons, run_nil, Option.bind_fun_some]

/-- A run of a concatenation is the run of the second part from the end of the first. -/
theorem run_append (step : σ → α → Option σ) (s : σ) (as bs : List α) :
    run step s (as ++ bs) = (run step s as).bind fun t => run step t bs := by
  induction as generalizing s with
  | nil => rfl
  | cons a as ih =>
      simp only [List.cons_append, run_cons]
      cases step s a with
      | none => rfl
      | some t => exact ih t

/-- The states that a run from an initial state arrives at. -/
def Reachable (step : σ → α → Option σ) (init : σ → Prop) (s : σ) : Prop :=
  ∃ s₀ as, init s₀ ∧ run step s₀ as = some s

variable {step : σ → α → Option σ} {init : σ → Prop}

theorem Reachable.start {s : σ} (h : init s) : Reachable step init s :=
  ⟨s, [], h, rfl⟩

/-- Reachability is closed under runs. -/
theorem Reachable.trans {s t : σ} (h : Reachable step init s) {as : List α}
    (hr : run step s as = some t) : Reachable step init t := by
  obtain ⟨s₀, bs, h₀, hb⟩ := h
  refine ⟨s₀, bs ++ as, h₀, ?_⟩
  rw [run_append, hb]
  exact hr

theorem Reachable.next {s t : σ} {a : α} (h : Reachable step init s)
    (hs : step s a = some t) : Reachable step init t :=
  h.trans ((run_singleton step s a).trans hs)

/-! ## Properties of all the steps and all the states of a run -/

/-- Every step that the run takes satisfies `P`. -/
def AllSteps (step : σ → α → Option σ) (P : σ → α → σ → Prop) : σ → List α → Prop
  | _, [] => True
  | s, a :: as => ∀ t, step s a = some t → P s a t ∧ AllSteps step P t as

/-- Every state that the run passes through satisfies `Q`. -/
def AllStates (step : σ → α → Option σ) (Q : σ → Prop) : σ → List α → Prop
  | s, [] => Q s
  | s, a :: as => Q s ∧ ∀ t, step s a = some t → AllStates step Q t as

theorem allSteps_cons {P : σ → α → σ → Prop} {s t : σ} {a : α} {as : List α}
    (hs : step s a = some t) (hP : P s a t) (h : AllSteps step P t as) :
    AllSteps step P s (a :: as) := by
  intro u hu
  obtain rfl := Option.some.inj (hs.symm.trans hu)
  exact ⟨hP, h⟩

theorem AllSteps.mono {P R : σ → α → σ → Prop} {s : σ} {as : List α}
    (hs : AllSteps step P s as) (h : ∀ s a t, P s a t → R s a t) : AllSteps step R s as := by
  induction as generalizing s with
  | nil => trivial
  | cons a as ih => exact fun t ht => ⟨h s a t (hs t ht).1, ih (hs t ht).2⟩

theorem AllSteps.and {P R : σ → α → σ → Prop} {s : σ} {as : List α}
    (hP : AllSteps step P s as) (hR : AllSteps step R s as) :
    AllSteps step (fun s a t => P s a t ∧ R s a t) s as := by
  induction as generalizing s with
  | nil => trivial
  | cons a as ih => exact fun t ht => ⟨⟨(hP t ht).1, (hR t ht).1⟩, ih (hP t ht).2 (hR t ht).2⟩

/-- What holds of the labels of a run holds of its steps. -/
theorem AllSteps.of_labels {p : α → Prop} {s : σ} {as : List α} (h : ∀ a ∈ as, p a) :
    AllSteps step (fun _ a _ => p a) s as := by
  induction as generalizing s with
  | nil => trivial
  | cons a as ih =>
      exact fun t _ => ⟨h a List.mem_cons_self, ih fun b hb => h b (List.mem_cons_of_mem a hb)⟩

/-- A test of all the steps of a run. -/
def checkSteps (step : σ → α → Option σ) (p : σ → α → Bool) : σ → List α → Bool
  | _, [] => true
  | s, a :: as =>
      match step s a with
      | some t => p s a && checkSteps step p t as
      | none => true

theorem allSteps_of_checkSteps {p : σ → α → Bool} {s : σ} {as : List α}
    (h : checkSteps step p s as = true) : AllSteps step (fun s a _ => p s a = true) s as := by
  induction as generalizing s with
  | nil => trivial
  | cons a as ih =>
      intro t ht
      simp only [checkSteps, ht, Bool.and_eq_true] at h
      exact ⟨h.1, ih h.2⟩

/-- A run that passes a test which is enough for `P`. -/
theorem AllSteps.of_check {p : σ → α → Bool} {P : σ → α → σ → Prop} {s : σ} {as : List α}
    (h : checkSteps step p s as = true) (hp : ∀ s a t, p s a = true → P s a t) :
    AllSteps step P s as :=
  (allSteps_of_checkSteps h).mono hp

theorem allSteps_append {P : σ → α → σ → Prop} {s : σ} {as bs : List α}
    (h : AllSteps step P s (as ++ bs)) : AllSteps step P s as := by
  induction as generalizing s with
  | nil => trivial
  | cons a as ih => exact fun t ht => ⟨(h t ht).1, ih (h t ht).2⟩

/-- The steps after a prefix of the run, seen from the state the prefix ends in. -/
theorem allSteps_drop {P : σ → α → σ → Prop} {s t : σ} {as bs : List α}
    (h : AllSteps step P s (as ++ bs)) (hr : run step s as = some t) :
    AllSteps step P t bs := by
  induction as generalizing s with
  | nil =>
      simp only [run_nil, Option.some.injEq] at hr
      exact hr ▸ h
  | cons a as ih =>
      rw [run_cons, Option.bind_eq_some_iff] at hr
      obtain ⟨u, hu, hr⟩ := hr
      exact ih (h u hu).2 hr

/-- A run with a step that violates `P` refutes `P` for all its steps. -/
theorem not_allSteps {P : σ → α → σ → Prop} {s t u : σ} {as bs : List α} {a : α}
    (hr : run step s as = some t) (ha : step t a = some u) (hP : ¬ P t a u) :
    ¬ AllSteps step P s (as ++ a :: bs) :=
  fun h => hP (allSteps_drop h hr u ha).1

/-- A family of properties holds of all steps exactly if each of them does. -/
theorem allSteps_forall {ι : Type*} {P : ι → σ → α → σ → Prop} {s : σ} {as : List α} :
    (∀ i, AllSteps step (P i) s as) ↔ AllSteps step (fun s a t => ∀ i, P i s a t) s as := by
  induction as generalizing s with
  | nil => exact ⟨fun _ => trivial, fun _ _ => trivial⟩
  | cons a as ih =>
      constructor
      · intro h t ht
        exact ⟨fun i => (h i t ht).1, ih.mp fun i => (h i t ht).2⟩
      · intro h i t ht
        exact ⟨(h t ht).1 i, ih.mpr (h t ht).2 i⟩

theorem AllStates.head {Q : σ → Prop} {s : σ} {as : List α} (h : AllStates step Q s as) :
    Q s := by
  cases as with
  | nil => exact h
  | cons a as => exact h.1

/-- A property of all states of a run holds of the state the run ends in. -/
theorem AllStates.last {Q : σ → Prop} {s t : σ} {as : List α} (h : AllStates step Q s as)
    (hr : run step s as = some t) : Q t := by
  induction as generalizing s with
  | nil =>
      simp only [run_nil, Option.some.injEq] at hr
      exact hr ▸ h
  | cons a as ih =>
      rw [run_cons, Option.bind_eq_some_iff] at hr
      obtain ⟨u, hu, hr⟩ := hr
      exact ih (h.2 u hu) hr

/-! ## From one step to whole runs -/

/-- **The invariant rule.** What holds initially and is kept by every step holds
of every reachable state. -/
theorem Reachable.invariant {Inv : σ → Prop} (hinit : ∀ s, init s → Inv s)
    (hstep : ∀ s a t, Inv s → step s a = some t → Inv t) {s : σ}
    (h : Reachable step init s) : Inv s := by
  obtain ⟨s₀, as, h₀, hr⟩ := h
  have hinv := hinit s₀ h₀
  clear h₀
  induction as generalizing s₀ with
  | nil =>
      simp only [run_nil, Option.some.injEq] at hr
      exact hr ▸ hinv
  | cons a as ih =>
      rw [run_cons, Option.bind_eq_some_iff] at hr
      obtain ⟨t, ht, hr⟩ := hr
      exact ih t hr (hstep s₀ a t hinv ht)

/-- An invariant that steps keep under a side condition holds in every state of
a run all of whose steps meet the condition. -/
theorem allStates_invariant {Inv : σ → Prop} {ok : σ → α → σ → Prop}
    (hstep : ∀ s a t, Inv s → ok s a t → step s a = some t → Inv t) :
    ∀ (as : List α) (s : σ), Inv s → AllSteps step ok s as → AllStates step Inv s as := by
  intro as
  induction as with
  | nil =>
      intro s hs _
      exact hs
  | cons a as ih =>
      intro s hs hok
      refine ⟨hs, fun t ht => ?_⟩
      exact ih t (hstep s a t hs (hok t ht).1 ht) (hok t ht).2

/-- An invariant that every step keeps holds in every state of every run. -/
theorem AllStates.of_invariant {Inv : σ → Prop}
    (hstep : ∀ s a t, Inv s → step s a = some t → Inv t) :
    ∀ (as : List α) (s : σ), Inv s → AllStates step Inv s as := by
  intro as
  induction as with
  | nil => exact fun s hs => hs
  | cons a as ih => exact fun s hs => ⟨hs, fun t ht => ih t (hstep s a t hs ht)⟩

/-- What every step from a state with the invariant satisfies holds of all the steps of
every run. -/
theorem AllSteps.of_invariant {Inv : σ → Prop} {P : σ → α → σ → Prop}
    (hstep : ∀ s a t, Inv s → step s a = some t → Inv t ∧ P s a t) :
    ∀ (as : List α) (s : σ), Inv s → AllSteps step P s as := by
  intro as
  induction as with
  | nil => exact fun _ _ => trivial
  | cons a as ih =>
      intro s hs t ht
      have h := hstep s a t hs ht
      exact ⟨h.2, ih t h.1⟩

theorem AllSteps.of_step {P : σ → α → σ → Prop} (h : ∀ s a t, step s a = some t → P s a t)
    (as : List α) (s : σ) : AllSteps step P s as :=
  @AllSteps.of_invariant σ α step (fun _ => True) P
    (fun s a t _ ht => ⟨trivial, h s a t ht⟩) as s trivial

/-- What a step from a state of the run satisfies, by what the state and the step do. -/
theorem AllSteps.of_allStates {Inv : σ → Prop} {ok P : σ → α → σ → Prop}
    (hstep : ∀ s a t, Inv s → ok s a t → step s a = some t → P s a t) {s : σ} {as : List α}
    (hok : AllSteps step ok s as) (hs : AllStates step Inv s as) : AllSteps step P s as := by
  induction as generalizing s with
  | nil => trivial
  | cons a as ih =>
      intro t ht
      exact ⟨hstep s a t hs.head (hok t ht).1 ht, ih (hok t ht).2 (hs.2 t ht)⟩

theorem run_invariant {Inv : σ → Prop} {ok : σ → α → σ → Prop}
    (hstep : ∀ s a t, Inv s → ok s a t → step s a = some t → Inv t) {s t : σ} {as : List α}
    (hs : Inv s) (hok : AllSteps step ok s as) (hr : run step s as = some t) : Inv t :=
  (allStates_invariant hstep as s hs hok).last hr

/-- **The view rule.** When every step is, through a view, a run of another system, every run
is one. -/
theorem run_view {τ β : Type*} {step' : τ → β → Option τ} {view : σ → τ}
    (h : ∀ s a t, step s a = some t → ∃ bs, run step' (view s) bs = some (view t)) {s t : σ}
    {as : List α} (hr : run step s as = some t) :
    ∃ bs, run step' (view s) bs = some (view t) := by
  induction as generalizing s with
  | nil =>
      obtain rfl := Option.some.inj hr
      exact ⟨[], rfl⟩
  | cons a as ih =>
      obtain ⟨u, hu, hr⟩ := Option.bind_eq_some_iff.mp hr
      obtain ⟨first, hfirst⟩ := h s a u hu
      obtain ⟨rest, hrest⟩ := ih hr
      exact ⟨first ++ rest, by rw [run_append, hfirst, Option.bind_some, hrest]⟩

theorem AllStates.mono {Q R : σ → Prop} (h : ∀ s, Q s → R s) :
    ∀ {as : List α} {s : σ}, AllStates step Q s as → AllStates step R s as := by
  intro as
  induction as with
  | nil =>
      intro s hs
      exact h s hs
  | cons a as ih =>
      intro s hs
      exact ⟨h s hs.1, fun t ht => ih (hs.2 t ht)⟩

/-- **The growth rule.** What grows by one at most in every step stays below a bound in a run
that is too short to reach it. -/
theorem allSteps_of_growth {size : σ → Nat} {bound : Nat}
    (hstep : ∀ s a t, step s a = some t → size t ≤ size s + 1) :
    ∀ (as : List α) (s : σ), size s + as.length < bound →
      AllSteps step (fun s _ _ => size s < bound) s as := by
  intro as
  induction as with
  | nil => exact fun _ _ => trivial
  | cons a as ih =>
      intro s hs t ht
      rw [List.length_cons] at hs
      have hgrown := hstep s a t ht
      exact ⟨by omega, ih t (by omega)⟩

/-- A property of single steps that follows from an invariant of the state
before and a side condition holds of all steps of the run. -/
theorem allSteps_of_invariant {Inv : σ → Prop} {ok P : σ → α → σ → Prop}
    (hstep : ∀ s a t, Inv s → ok s a t → step s a = some t → Inv t ∧ P s a t) :
    ∀ (as : List α) (s : σ), Inv s → AllSteps step ok s as → AllSteps step P s as := by
  intro as
  induction as with
  | nil =>
      intro s _ _
      trivial
  | cons a as ih =>
      intro s hs hok t ht
      have h := hstep s a t hs (hok t ht).1 ht
      exact ⟨h.2, ih t h.1 (hok t ht).2⟩

/-- An equivalence between two properties of a step, valid under an invariant of
all steps, is an equivalence between the properties of whole runs. -/
theorem allSteps_congr {Inv : σ → Prop} {P R : σ → α → σ → Prop}
    (hinv : ∀ s a t, Inv s → step s a = some t → Inv t)
    (h : ∀ s a t, Inv s → step s a = some t → (P s a t ↔ R s a t)) :
    ∀ (as : List α) (s : σ), Inv s → (AllSteps step P s as ↔ AllSteps step R s as) := by
  intro as
  induction as with
  | nil =>
      intro s _
      exact Iff.rfl
  | cons a as ih =>
      intro s hs
      constructor
      · intro hP t ht
        exact ⟨(h s a t hs ht).mp (hP t ht).1, (ih t (hinv s a t hs ht)).mp (hP t ht).2⟩
      · intro hR t ht
        exact ⟨(h s a t hs ht).mpr (hR t ht).1, (ih t (hinv s a t hs ht)).mpr (hR t ht).2⟩

theorem allSteps_of_iff {P R : σ → α → σ → Prop}
    (h : ∀ s a t, step s a = some t → (P s a t ↔ R s a t)) (as : List α) (s : σ) :
    AllSteps step P s as ↔ AllSteps step R s as :=
  @allSteps_congr σ α step (fun _ => True) P R (fun _ _ _ _ _ => trivial)
    (fun s a t _ => h s a t) as s trivial

/-- When a step from a good state leads to a good state exactly if it meets the
condition, a run visits good states only exactly if all its steps meet it. -/
theorem allStates_iff_allSteps {Inv Q : σ → Prop} {ok : σ → α → σ → Prop}
    (hinv : ∀ s a t, Inv s → step s a = some t → Inv t)
    (h : ∀ s a t, Inv s → Q s → step s a = some t → (Q t ↔ ok s a t)) :
    ∀ (as : List α) (s : σ), Inv s → Q s →
      (AllStates step Q s as ↔ AllSteps step ok s as) := by
  intro as
  induction as with
  | nil =>
      intro s _ hq
      exact ⟨fun _ => trivial, fun _ => hq⟩
  | cons a as ih =>
      intro s hs hq
      constructor
      · intro hall t ht
        have hqt := (hall.2 t ht).head
        exact ⟨(h s a t hs hq ht).mp hqt, (ih t (hinv s a t hs ht) hqt).mp (hall.2 t ht)⟩
      · intro hok
        refine ⟨hq, fun t ht => ?_⟩
        have hqt := (h s a t hs hq ht).mpr (hok t ht).1
        exact (ih t (hinv s a t hs ht) hqt).mpr (hok t ht).2

/-! ## Components -/

/-- Every system of the first list has come to its place in the second by a run. -/
def Advances (step : σ → α → Option σ) (xs ys : List σ) : Prop :=
  ∀ (i : Nat) (x : σ), xs[i]? = some x → ∃ as y, run step x as = some y ∧ ys[i]? = some y

theorem Advances.refl (step : σ → α → Option σ) (xs : List σ) : Advances step xs xs :=
  fun _ x hx => ⟨[], x, rfl, hx⟩

theorem Advances.trans {xs ys zs : List σ} (h : Advances step xs ys)
    (h' : Advances step ys zs) : Advances step xs zs := by
  intro i x hx
  obtain ⟨as, y, hrun, hy⟩ := h i x hx
  obtain ⟨bs, z, hrun', hz⟩ := h' i y hy
  exact ⟨as ++ bs, z, by rw [run_append, hrun]; exact hrun', hz⟩

/-- One of the systems takes a step. -/
theorem Advances.set {xs : List σ} {i : Nat} {x y : σ} {a : α} (hx : xs[i]? = some x)
    (hstep : step x a = some y) : Advances step xs (xs.set i y) := by
  intro j z hz
  by_cases hij : i = j
  · subst hij
    obtain rfl := Option.some.inj (hx.symm.trans hz)
    refine ⟨[a], y, (run_singleton step x a).trans hstep, ?_⟩
    exact List.getElem?_set_self (List.getElem?_eq_some_iff.mp hx).1
  · exact ⟨[], z, rfl, by rw [List.getElem?_set_ne hij, hz]⟩

/-- **The component rule.** What a step keeps and all the systems have, they have wherever
they come to. -/
theorem Advances.invariant {Inv : σ → Prop} (hstep : ∀ s a t, Inv s → step s a = some t → Inv t)
    {xs ys : List σ} (h : Advances step xs ys) {i : Nat} {x : σ} (hx : xs[i]? = some x)
    (hinv : Inv x) : ∃ y, ys[i]? = some y ∧ Inv y := by
  obtain ⟨as, y, hrun, hy⟩ := h i x hx
  exact ⟨y, hy, (AllStates.of_invariant hstep as x hinv).last hrun⟩

end AsioServer.Lib
