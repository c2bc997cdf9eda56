/-
AsioServer.Lib.Waiters — no wake-up is lost.

Threads wait on a condition variable for a resource of which `n` units are there. A
thread that waits is `parked` or `awake`: woken, or not yet blocked. `Served` says that
nobody is parked or at least `n` threads are awake, so no unit waits for a thread that
sleeps. It is kept when a thread parks only while nothing is there and stops being awake
only by taking a unit (`Served.set`), and when every new unit comes with a `notify_one`
(`Served.notifyOne`).

The other half of the module looks at the threads through a function: a notification
commutes with it when it keeps who is parked and what a wake-up does.
-/
import AsioServer.Lib.Monitor

namespace AsioServer.Lib

variable {τ υ : Type*}

/-! ## Enough waiters are awake -/

/-- Nobody is parked, or there are not more units than threads awake. -/
def Served (parked awake : τ → Bool) (n : Nat) (ls : List τ) : Prop :=
  ls.countP parked = 0 ∨ n ≤ ls.countP awake

namespace Served

variable {parked awake : τ → Bool} {n k : Nat} {ls ls' : List τ}

theorem of_none (h : ∀ l ∈ ls, parked l = false) : Served parked awake n ls := by
  refine Or.inl (List.countP_eq_zero.mpr fun l hl => ?_)
  rw [h l hl]
  exact Bool.false_ne_true

/-- One thread moves: nothing is there afterwards, or the thread does not park and is awake
no longer only when there is one unit less. -/
theorem set (h : Served parked awake n ls) {i : Nat} {l m : τ} (hi : ls[i]? = some l)
    (hmove : k = 0 ∨ (contrib parked m ≤ contrib parked l ∧
      k + contrib awake l ≤ n + contrib awake m)) :
    Served parked awake k (ls.set i m) := by
  rcases hmove with rfl | ⟨hparks, htakes⟩
  · exact Or.inr (Nat.zero_le _)
  · have hp := countP_set_add parked (m := m) hi
    have ha := countP_set_add awake (m := m) hi
    rcases h with h | h
    · exact Or.inl (by omega)
    · exact Or.inr (by omega)

theorem mono (h : Served parked awake n ls) (hk : k ≤ n) : Served parked awake k ls :=
  h.imp_right fun hn => Nat.le_trans hk hn

/-- A new unit with a notification. -/
theorem notifyOne {wake : τ → τ} {w : Option Nat} (h : Served parked awake n ls)
    (hwake : ∀ l, parked l = true →
      parked (wake l) = false ∧ awake l = false ∧ awake (wake l) = true)
    (hn : Lib.notifyOne parked wake ls w = some ls') : Served parked awake (n + 1) ls' := by
  cases w with
  | none =>
      -- nobody was parked
      obtain rfl := notifyOne_none hn
      refine Served.of_none fun l hl => ?_
      cases hp : parked l with
      | false => rfl
      | true =>
          have hany : ls'.any parked = true := List.any_eq_true.mpr ⟨l, hl, hp⟩
          simp [Lib.notifyOne, hany] at hn
  | some j =>
      obtain ⟨l, hl, hp, rfl⟩ := notifyOne_some hn
      obtain ⟨hwoken, hasleep, hawake⟩ := hwake l hp
      refine h.set hl (Or.inr ⟨?_, ?_⟩)
      · rw [contrib_of_false hwoken]
        exact Nat.zero_le _
      · exact Nat.le_of_eq (by rw [contrib_of_false hasleep, contrib_of_true hawake])

/-- A notification of other waiters. -/
theorem congr (h : Served parked awake n ls) (hp : ls'.countP parked = ls.countP parked)
    (ha : ls'.countP awake = ls.countP awake) : Served parked awake n ls' := by
  unfold Served
  rw [hp, ha]
  exact h

/-- While somebody is parked and nobody is awake, nothing is there. -/
theorem eq_zero (h : Served parked awake n ls) {l : τ} (hl : l ∈ ls) (hp : parked l = true)
    (ha : ∀ m ∈ ls, awake m = false) : n = 0 := by
  have hawake : ls.countP awake = 0 := by
    refine List.countP_eq_zero.mpr fun m hm => ?_
    rw [ha m hm]
    exact Bool.false_ne_true
  rcases h with h | h
  · exact absurd (List.countP_pos_iff.mpr ⟨l, hl, hp⟩) (by omega)
  · omega

end Served

/-- After `notify_all` nobody is parked. -/
theorem not_parked_of_notifyAll {parked : τ → Bool} {wake : τ → τ} {ls : List τ} {x : τ}
    (hwake : ∀ l, parked l = true → parked (wake l) = false)
    (hx : x ∈ notifyAll parked wake ls) : parked x = false := by
  obtain ⟨l, -, rfl⟩ := List.mem_map.mp hx
  split
  · next hl => exact hwake l hl
  · next hl => exact Bool.eq_false_iff.mpr hl

/-! ## The threads, seen through a function -/

section Map

variable {parked : τ → Bool} {wake : τ → τ} {parked' : υ → Bool} {wake' : υ → υ}
  {f : τ → υ} {ls ls' : List τ} {i : Nat} {x y : τ}

/-- A thread moves and looks the same. -/
theorem map_set_of_eq (hi : ls[i]? = some x) (hf : f y = f x) : (ls.set i y).map f = ls.map f := by
  obtain ⟨hlt, rfl⟩ := List.getElem?_eq_some_iff.mp hi
  refine List.ext_getElem? fun j => ?_
  rw [List.getElem?_map, List.getElem?_map, List.getElem?_set]
  split
  · next hij =>
    obtain rfl := hij
    simp [hlt, hf]
  · rfl

/-- A notification that cannot be seen. -/
theorem map_notifyAll (hf : ∀ l, f (wake l) = f l) (ls : List τ) :
    (notifyAll parked wake ls).map f = ls.map f := by
  rw [notifyAll, List.map_map]
  refine List.map_congr_left fun l _ => ?_
  simp only [Function.comp_apply]
  split
  · exact hf l
  · rfl

theorem map_notifyOne (hf : ∀ l, f (wake l) = f l) {w : Option Nat}
    (h : notifyOne parked wake ls w = some ls') : ls'.map f = ls.map f := by
  cases w with
  | none => rw [notifyOne_none h]
  | some j =>
      obtain ⟨l, hl, -, rfl⟩ := notifyOne_some h
      exact map_set_of_eq hl (hf l)

theorem notifyAll_map (hp : ∀ l, parked' (f l) = parked l)
    (hw : ∀ l, parked l = true → f (wake l) = wake' (f l)) (ls : List τ) :
    (notifyAll parked wake ls).map f = notifyAll parked' wake' (ls.map f) := by
  unfold notifyAll
  rw [List.map_map, List.map_map]
  refine List.map_congr_left fun l _ => ?_
  simp only [Function.comp_apply, hp l]
  split
  · next h => exact hw l h
  · rfl

theorem notifyOne_map (hp : ∀ l, parked' (f l) = parked l)
    (hw : ∀ l, parked l = true → f (wake l) = wake' (f l)) (ls : List τ) (w : Option Nat) :
    (notifyOne parked wake ls w).map (List.map f) = notifyOne parked' wake' (ls.map f) w := by
  cases w with
  | none =>
      have hany : (ls.map f).any parked' = ls.any parked := by
        rw [List.any_map]
        congr 1
        funext l
        exact hp l
      simp only [notifyOne, hany]
      split <;> rfl
  | some j =>
      simp only [notifyOne, List.getElem?_map]
      cases ls[j]? with
      | none => rfl
      | some l =>
          simp only [Option.map_some, hp l]
          split
          · next h => simp only [Option.map_some, List.map_set, hw l h]
          · rfl

end Map

end AsioServer.Lib
