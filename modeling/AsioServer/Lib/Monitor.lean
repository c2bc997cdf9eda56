/-
AsioServer.Lib.Monitor — threads that share a lock and a condition variable.

The local states of the threads are a list; a thread is its index. A thread
that blocks on the condition variable satisfies `parked`, and a wake-up changes
its local state by `wake`. `notifyOne` takes the choice of the thread that is
woken as an argument: any parked one, and nobody exactly when none is parked.

A count of the threads whose local state satisfies a predicate changes by what
the acting thread contributes (`countP_set_add`) and does not change under
notifications, as long as the predicate does not tell a parked thread from a
woken one.
-/
import Mathlib.Algebra.GroupWithZero.Nat
import Mathlib.Data.List.Basic

namespace AsioServer.Lib

variable {τ : Type*}

/-! ## One thread moves -/

/-- The contribution of one local state to a count. -/
def contrib (p : τ → Bool) (l : τ) : Nat := if p l then 1 else 0

theorem contrib_of_true {p : τ → Bool} {l : τ} (h : p l = true) : contrib p l = 1 := if_pos h

theorem contrib_of_false {p : τ → Bool} {l : τ} (h : p l = false) : contrib p l = 0 :=
  if_neg (by simp [h])

theorem contrib_le_one (p : τ → Bool) (l : τ) : contrib p l ≤ 1 := by
  unfold contrib
  split
  · exact Nat.le_refl 1
  · exact Nat.zero_le 1

theorem contrib_congr {p : τ → Bool} {l l' : τ} (h : p l = p l') : contrib p l = contrib p l' := by
  rw [contrib, contrib, h]

/-- The count after one thread moved, in a form without subtraction. -/
theorem countP_set_add (p : τ → Bool) {ls : List τ} {i : Nat} {l m : τ}
    (h : ls[i]? = some l) :
    (ls.set i m).countP p + contrib p l = ls.countP p + contrib p m := by
  obtain ⟨hi, rfl⟩ := List.getElem?_eq_some_iff.mp h
  rw [List.countP_set hi]
  have hpos : p ls[i] = true → 0 < ls.countP p := fun hp =>
    List.countP_pos_iff.mpr ⟨_, List.getElem_mem hi, hp⟩
  unfold contrib
  by_cases hp : p ls[i] = true
  · have := hpos hp
    simp only [hp, if_true]
    omega
  · simp [hp]

/-- A thread whose local state satisfies the predicate is counted. -/
theorem contrib_le_countP (p : τ → Bool) {ls : List τ} {i : Nat} {l : τ}
    (h : ls[i]? = some l) : contrib p l ≤ ls.countP p := by
  unfold contrib
  split
  · next hp => exact List.countP_pos_iff.mpr ⟨l, List.mem_of_getElem? h, hp⟩
  · exact Nat.zero_le _

/-- Two different threads whose local states satisfy the predicate are both counted. -/
theorem two_le_countP {p : τ → Bool} {x y : τ} (hne : x ≠ y) (hx : p x = true) (hy : p y = true)
    {ls : List τ} (hxs : x ∈ ls) (hys : y ∈ ls) : 2 ≤ ls.countP p := by
  induction ls with
  | nil => simp at hxs
  | cons l ls ih =>
      rw [List.countP_cons]
      rcases List.mem_cons.mp hxs with rfl | hxl
      · have hyl : y ∈ ls := (List.mem_cons.mp hys).resolve_left (Ne.symm hne)
        have hpos : 0 < ls.countP p := List.countP_pos_iff.mpr ⟨y, hyl, hy⟩
        rw [if_pos hx]
        omega
      · rcases List.mem_cons.mp hys with rfl | hys
        · have hpos : 0 < ls.countP p := List.countP_pos_iff.mpr ⟨x, hxl, hx⟩
          rw [if_pos hy]
          omega
        · have htwo := ih hxl hys
          omega

/-- Who is at an index after one thread moved. -/
theorem getElem?_set_cases {ls : List τ} {i j : Nat} {l' x : τ}
    (h : (ls.set i l')[j]? = some x) : (j = i ∧ x = l') ∨ (j ≠ i ∧ ls[j]? = some x) := by
  rw [List.getElem?_set] at h
  by_cases hij : i = j
  · rw [if_pos hij] at h
    split at h
    · exact Or.inl ⟨hij.symm, (Option.some.inj h).symm⟩
    · exact absurd h (by simp)
  · rw [if_neg hij] at h
    exact Or.inr ⟨fun hji => hij hji.symm, h⟩

theorem getElem?_set_self_of_some {ls : List τ} {i : Nat} {l m : τ} (h : ls[i]? = some l) :
    (ls.set i m)[i]? = some m := by
  obtain ⟨hi, -⟩ := List.getElem?_eq_some_iff.mp h
  rw [List.getElem?_set, if_pos rfl, if_pos hi]

theorem mem_set_cases {ls : List τ} {i : Nat} {l' x : τ} (h : x ∈ ls.set i l') :
    x = l' ∨ x ∈ ls :=
  (List.mem_or_eq_of_mem_set h).symm

/-! ## Names handed out by a counter -/

/-- 1 for the names handed out before `n`, 0 for those that are still free. -/
def made (n a : Nat) : Nat := if a < n then 1 else 0

theorem made_le_one (n a : Nat) : made n a ≤ 1 := by
  unfold made
  split <;> omega

theorem made_of_le {n a : Nat} (h : n ≤ a) : made n a = 0 := if_neg (by omega)

theorem made_succ (n a : Nat) : made (n + 1) a = made n a + if n = a then 1 else 0 := by
  unfold made
  rcases Nat.lt_trichotomy a n with h | h | h
  · rw [if_pos (show a < n + 1 by omega), if_pos h, if_neg (show ¬ n = a by omega)]
  · rw [if_pos (show a < n + 1 by omega), if_neg (show ¬ a < n by omega), if_pos h.symm]
  · rw [if_neg (show ¬ a < n + 1 by omega), if_neg (show ¬ a < n by omega),
      if_neg (show ¬ n = a by omega)]

/-! ## Notifications -/

variable (parked : τ → Bool) (wake : τ → τ)

/-- `notify_all`: every parked thread is woken. -/
def notifyAll (ls : List τ) : List τ := ls.map fun l => if parked l then wake l else l

/-- `notify_one`, with the choice of the thread that is woken. -/
def notifyOne (ls : List τ) : Option Nat → Option (List τ)
  | some j =>
      match ls[j]? with
      | some l => if parked l then some (ls.set j (wake l)) else none
      | none => none
  | none => if ls.any parked then none else some ls

variable {parked wake}

theorem notifyOne_some {ls ls' : List τ} {j : Nat}
    (h : notifyOne parked wake ls (some j) = some ls') :
    ∃ l, ls[j]? = some l ∧ parked l = true ∧ ls' = ls.set j (wake l) := by
  simp only [notifyOne] at h
  split at h
  · next l hl =>
    split at h
    · next hp => exact ⟨l, hl, hp, (Option.some.inj h).symm⟩
    · exact absurd h (by simp)
  · exact absurd h (by simp)

theorem notifyOne_none {ls ls' : List τ} (h : notifyOne parked wake ls none = some ls') :
    ls' = ls := by
  simp only [notifyOne] at h
  split at h
  · exact absurd h (by simp)
  · exact (Option.some.inj h).symm

/-- A predicate that a wake-up does not change has the same count after `notify_one`. -/
theorem countP_notifyOne {p : τ → Bool} (hp : ∀ l, parked l = true → p (wake l) = p l)
    {ls ls' : List τ} {w : Option Nat} (h : notifyOne parked wake ls w = some ls') :
    ls'.countP p = ls.countP p := by
  cases w with
  | none => rw [notifyOne_none h]
  | some j =>
      obtain ⟨l, hl, hpark, rfl⟩ := notifyOne_some h
      have hset := countP_set_add p (m := wake l) hl
      have hsame : contrib p (wake l) = contrib p l := contrib_congr (hp l hpark)
      omega

theorem countP_notifyAll {p : τ → Bool} (hp : ∀ l, parked l = true → p (wake l) = p l)
    (ls : List τ) : (notifyAll parked wake ls).countP p = ls.countP p := by
  rw [notifyAll, List.countP_map]
  congr 1
  funext l
  simp only [Function.comp_apply]
  split
  · next h => exact hp l h
  · rfl

/-- Some choice of the woken thread is always possible. -/
theorem exists_notifyOne (parked : τ → Bool) (wake : τ → τ) (ls : List τ) :
    ∃ w ls', notifyOne parked wake ls w = some ls' := by
  by_cases hany : ls.any parked = true
  · obtain ⟨l, hl, hp⟩ := List.any_eq_true.mp hany
    obtain ⟨j, hj⟩ := List.mem_iff_getElem?.mp hl
    exact ⟨some j, ls.set j (wake l), by simp [notifyOne, hj, hp]⟩
  · exact ⟨none, ls, if_neg hany⟩

/-- A thread that is not parked is the same after a notification. -/
theorem getElem?_notifyOne_of_not_parked {ls ls' : List τ} {w : Option Nat}
    (h : notifyOne parked wake ls w = some ls') {i : Nat} {l : τ} (hl : ls[i]? = some l)
    (hp : parked l = false) : ls'[i]? = some l := by
  cases w with
  | none => exact notifyOne_none h ▸ hl
  | some k =>
      obtain ⟨m, hm, hpark, rfl⟩ := notifyOne_some h
      have hne : k ≠ i := by
        rintro rfl
        rw [hl] at hm
        obtain rfl := Option.some.inj hm
        rw [hp] at hpark
        exact absurd hpark (by simp)
      rw [List.getElem?_set_ne hne, hl]

/-- What a notification leaves at an index: the same thread, perhaps woken. -/
theorem getElem?_notifyOne {ls ls' : List τ} {w : Option Nat}
    (h : notifyOne parked wake ls w = some ls') {j : Nat} {x : τ} (hx : ls'[j]? = some x) :
    ∃ l, ls[j]? = some l ∧ (x = l ∨ (parked l = true ∧ x = wake l)) := by
  cases w with
  | none => exact ⟨x, notifyOne_none h ▸ hx, Or.inl rfl⟩
  | some k =>
      obtain ⟨l, hl, hpark, rfl⟩ := notifyOne_some h
      rcases getElem?_set_cases hx with ⟨rfl, rfl⟩ | ⟨-, hx⟩
      · exact ⟨l, hl, Or.inr ⟨hpark, rfl⟩⟩
      · exact ⟨x, hx, Or.inl rfl⟩

theorem length_notifyOne {ls ls' : List τ} {w : Option Nat}
    (h : notifyOne parked wake ls w = some ls') : ls'.length = ls.length := by
  cases w with
  | none => rw [notifyOne_none h]
  | some k =>
      obtain ⟨l, -, -, rfl⟩ := notifyOne_some h
      exact List.length_set

/-- The thread that a notification leaves in the place of a thread. -/
theorem notifyOne_getElem? {ls ls' : List τ} {w : Option Nat}
    (h : notifyOne parked wake ls w = some ls') {j : Nat} {l : τ} (hl : ls[j]? = some l) :
    ∃ x, ls'[j]? = some x ∧ (x = l ∨ (parked l = true ∧ x = wake l)) := by
  have hj : j < ls'.length := length_notifyOne h ▸ (List.getElem?_eq_some_iff.mp hl).1
  have hx : ls'[j]? = some ls'[j] := List.getElem?_eq_getElem hj
  obtain ⟨m, hm, hcase⟩ := getElem?_notifyOne h hx
  obtain rfl := Option.some.inj (hl.symm.trans hm)
  exact ⟨ls'[j], hx, hcase⟩

theorem notifyAll_getElem? {ls : List τ} {j : Nat} {l : τ} (hl : ls[j]? = some l) :
    ∃ x, (notifyAll parked wake ls)[j]? = some x ∧ (x = l ∨ (parked l = true ∧ x = wake l)) := by
  refine ⟨if parked l then wake l else l, by rw [notifyAll, List.getElem?_map, hl]; rfl, ?_⟩
  split
  · next hp => exact Or.inr ⟨hp, rfl⟩
  · exact Or.inl rfl

theorem getElem?_notifyAll {ls : List τ} {j : Nat} {x : τ}
    (hx : (notifyAll parked wake ls)[j]? = some x) :
    ∃ l, ls[j]? = some l ∧ (x = l ∨ (parked l = true ∧ x = wake l)) := by
  rw [notifyAll, List.getElem?_map, Option.map_eq_some_iff] at hx
  obtain ⟨l, hl, rfl⟩ := hx
  refine ⟨l, hl, ?_⟩
  split
  · next hp => exact Or.inr ⟨hp, rfl⟩
  · exact Or.inl rfl

end AsioServer.Lib
