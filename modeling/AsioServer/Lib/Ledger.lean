/-
AsioServer.Lib.Ledger — what a run takes in and what it gives out.

A ledger over a step function has three columns: each step takes in a list of
items and gives out a list of items, and each state holds some. A step balances
when what it gives out, followed by what is held afterwards, is what was held
before, followed by what it takes in. Items are then neither lost nor made up
nor reordered.

`gather` collects a column over a run. `gather_balance` carries the balance of
the steps to the run, and `balances_iff` says that nothing weaker than the
balance of every step keeps the books of a run balanced all along. `run_gather`
reads a column as the labels of another system.
-/
import AsioServer.Lib.Transition

namespace AsioServer.Lib

variable {σ α β : Type*} {step : σ → α → Option σ}

/-- What the steps of a run contribute to a column, in order. -/
def gather (step : σ → α → Option σ) (f : σ → α → σ → List β) : σ → List α → List β
  | _, [] => []
  | s, a :: as =>
      match step s a with
      | some t => f s a t ++ gather step f t as
      | none => []

@[simp] theorem gather_nil (f : σ → α → σ → List β) (s : σ) : gather step f s [] = [] := rfl

theorem gather_cons {f : σ → α → σ → List β} {s t : σ} {a : α} (h : step s a = some t)
    (as : List α) : gather step f s (a :: as) = f s a t ++ gather step f t as := by
  rw [gather, h]

/-- **The history rule.** When the labels that each step contributes lead another system from
the view before to the view after, those of a run do. -/
theorem run_gather {τ : Type*} {step' : τ → β → Option τ} {view : σ → τ}
    {f : σ → α → σ → List β} {s t : σ} {as : List α}
    (h : AllSteps step (fun s a t => run step' (view s) (f s a t) = some (view t)) s as)
    (hr : run step s as = some t) : run step' (view s) (gather step f s as) = some (view t) := by
  induction as generalizing s with
  | nil =>
      obtain rfl := Option.some.inj hr
      rfl
  | cons a as ih =>
      obtain ⟨u, hu, hr⟩ := Option.bind_eq_some_iff.mp hr
      obtain ⟨hfirst, hrest⟩ := h u hu
      rw [gather_cons hu, run_append, hfirst, Option.bind_some]
      exact ih hrest hr

/-- **The record rule.** A record to which every step adds its contribution has got the column
of the run. -/
theorem record_eq_gather {record : σ → List β} {f : σ → α → σ → List β} {s t : σ} {as : List α}
    (h : AllSteps step (fun s a t => record t = record s ++ f s a t) s as)
    (hr : run step s as = some t) : record t = record s ++ gather step f s as := by
  induction as generalizing s with
  | nil =>
      obtain rfl := Option.some.inj hr
      rw [gather_nil, List.append_nil]
  | cons a as ih =>
      obtain ⟨u, hu, hr⟩ := Option.bind_eq_some_iff.mp hr
      obtain ⟨hfirst, hrest⟩ := h u hu
      rw [ih hrest hr, hfirst, gather_cons hu, List.append_assoc]

/-- **The history invariant.** An invariant of the state with what the steps so far have
contributed. -/
theorem gather_invariant {Inv : List β → σ → Prop} {f : σ → α → σ → List β}
    (hstep : ∀ xs s a t, Inv xs s → step s a = some t → Inv (xs ++ f s a t) t)
    {xs : List β} {s t : σ} {as : List α} (h : Inv xs s) (hr : run step s as = some t) :
    Inv (xs ++ gather step f s as) t := by
  induction as generalizing xs s with
  | nil =>
      obtain rfl := Option.some.inj hr
      simpa using h
  | cons a as ih =>
      rw [run_cons] at hr
      obtain ⟨u, hs, hr⟩ := Option.bind_eq_some_iff.mp hr
      rw [gather_cons hs, ← List.append_assoc]
      exact ih (hstep xs s a u h hs) hr

/-- A column that only the labels of the run make up. -/
theorem gather_labels {g : α → List β} {s t : σ} {as : List α} (hr : run step s as = some t) :
    gather step (fun _ a _ => g a) s as = as.flatMap g := by
  induction as generalizing s with
  | nil => rfl
  | cons a as ih =>
      rw [run_cons] at hr
      obtain ⟨u, hs, hr⟩ := Option.bind_eq_some_iff.mp hr
      rw [gather_cons hs, List.flatMap_cons, ih hr]

/-- The columns of a ledger. -/
structure Ledger (σ α β : Type*) where
  held : σ → List β
  taken : σ → α → σ → List β
  given : σ → α → σ → List β

namespace Ledger

/-- A step balances. -/
def Balances (l : Ledger σ α β) (s : σ) (a : α) (t : σ) : Prop :=
  l.given s a t ++ l.held t = l.held s ++ l.taken s a t

/-- The books of a run that ends in `t` balance. -/
def BalancesRun (l : Ledger σ α β) (step : σ → α → Option σ) (s : σ) (as : List α) (t : σ) :
    Prop :=
  gather step l.given s as ++ l.held t = l.held s ++ gather step l.taken s as

variable {l : Ledger σ α β}

/-- **The ledger rule.** If every step balances, the run does. -/
theorem gather_balance {s t : σ} {as : List α} (h : AllSteps step l.Balances s as)
    (hr : run step s as = some t) : l.BalancesRun step s as t := by
  induction as generalizing s with
  | nil =>
      obtain rfl := Option.some.inj hr
      simp [BalancesRun]
  | cons a as ih =>
      rw [run_cons, Option.bind_eq_some_iff] at hr
      obtain ⟨u, hu, hr⟩ := hr
      have hhead : l.given s a u ++ l.held u = l.held s ++ l.taken s a u := (h u hu).1
      have htail : gather step l.given u as ++ l.held t =
          l.held u ++ gather step l.taken u as := ih (h u hu).2 hr
      rw [BalancesRun, gather_cons hu, gather_cons hu, List.append_assoc, htail,
        ← List.append_assoc, hhead, List.append_assoc]

/-- A run whose books balance, from the state after a step that balances. -/
theorem BalancesRun.tail {s t u : σ} {a : α} {as : List α} (hs : step s a = some u)
    (hhead : l.Balances s a u) (h : l.BalancesRun step s (a :: as) t) :
    l.BalancesRun step u as t := by
  have hhead : l.given s a u ++ l.held u = l.held s ++ l.taken s a u := hhead
  rw [BalancesRun, gather_cons hs, gather_cons hs, ← List.append_assoc (l.held s), ← hhead,
    List.append_assoc, List.append_assoc] at h
  exact List.append_cancel_left h

/-- **The books balance at every moment** of a run exactly if every step balances. -/
theorem balances_iff (as : List α) (s : σ) :
    (∀ bs t, bs <+: as → run step s bs = some t → l.BalancesRun step s bs t) ↔
      AllSteps step l.Balances s as := by
  constructor
  · intro h
    induction as generalizing s with
    | nil => trivial
    | cons a as ih =>
        intro t ht
        have hfirst := h [a] t (List.prefix_append [a] as) (by simp [ht])
        have hhead : l.Balances s a t := by
          simpa [BalancesRun, Balances, gather_cons ht] using hfirst
        refine ⟨hhead, ih t fun bs u hbs hr => ?_⟩
        refine (h (a :: bs) u ?_ ?_).tail ht hhead
        · exact List.cons_prefix_cons.mpr ⟨rfl, hbs⟩
        · rw [run_cons, ht]
          exact hr
  · rintro h bs t ⟨cs, rfl⟩ hr
    exact gather_balance (allSteps_append h) hr

end Ledger

end AsioServer.Lib
