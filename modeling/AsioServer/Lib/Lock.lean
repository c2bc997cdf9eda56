/-
AsioServer.Lib.Lock — who holds a lock.

The local states of the threads are a list; `holds` says of a local state that
it lies between the lock and the unlock. `LockOk` links it with the field
`owner` of the lock: the owner is the thread whose local state holds the lock,
and there is one exactly if some local state does.

A step of one thread takes the lock, keeps it or gives it back (`acquire`,
`keep`, `release`), and a wake-up touches no holder. Two threads that hold the
lock are the same (`LockOk.unique`).
-/
import AsioServer.Lib.Monitor

namespace AsioServer.Lib

variable {τ : Type*} {holds : τ → Bool} {owner : Option Nat} {ls ls' : List τ} {i j : Nat}
  {l m : τ}

/-- The owner of the lock is the thread whose local state holds it. -/
def LockOk (holds : τ → Bool) (owner : Option Nat) (ls : List τ) : Prop :=
  ∀ i, owner = some i ↔ ∃ l, ls[i]? = some l ∧ holds l = true

namespace LockOk

theorem owner_eq (h : LockOk holds owner ls) (hi : ls[i]? = some l) (hl : holds l = true) :
    owner = some i := (h i).mpr ⟨l, hi, hl⟩

/-- **Mutual exclusion.** -/
theorem unique (h : LockOk holds owner ls) (hi : ls[i]? = some l) (hl : holds l = true)
    (hj : ls[j]? = some m) (hm : holds m = true) : i = j :=
  Option.some.inj ((h.owner_eq hi hl).symm.trans (h.owner_eq hj hm))

/-- While the lock is free nobody is inside. -/
theorem free (h : LockOk holds none ls) (hi : ls[i]? = some l) : holds l = false := by
  cases hl : holds l with
  | false => rfl
  | true => exact absurd (h.owner_eq hi hl) (by simp)

theorem init (h : ∀ l ∈ ls, holds l = false) : LockOk holds none ls := by
  intro i
  constructor
  · intro hnone
    exact absurd hnone (by simp)
  · intro hex
    obtain ⟨l, hi, hl⟩ := hex
    rw [h l (List.mem_of_getElem? hi)] at hl
    exact absurd hl (by simp)

/-- A thread moves and neither takes the lock nor gives it back. -/
theorem keep (h : LockOk holds owner ls) (hi : ls[i]? = some l) (hm : holds m = holds l) :
    LockOk holds owner (ls.set i m) := by
  intro j
  rw [h j]
  constructor
  · intro hex
    obtain ⟨x, hj, hx⟩ := hex
    by_cases hij : i = j
    · obtain rfl := hij
      obtain rfl := Option.some.inj (hi.symm.trans hj)
      exact ⟨m, getElem?_set_self_of_some hi, hm.trans hx⟩
    · exact ⟨x, by rw [List.getElem?_set_ne hij, hj], hx⟩
  · intro hex
    obtain ⟨x, hj, hx⟩ := hex
    rcases getElem?_set_cases hj with ⟨rfl, rfl⟩ | ⟨-, hj⟩
    · exact ⟨l, hi, hm ▸ hx⟩
    · exact ⟨x, hj, hx⟩

/-- A thread takes the free lock. -/
theorem acquire (h : LockOk holds none ls) (hi : ls[i]? = some l) (hm : holds m = true) :
    LockOk holds (some i) (ls.set i m) := by
  intro j
  constructor
  · intro heq
    obtain rfl := Option.some.inj heq
    exact ⟨m, getElem?_set_self_of_some hi, hm⟩
  · intro hex
    obtain ⟨x, hj, hx⟩ := hex
    rcases getElem?_set_cases hj with ⟨rfl, -⟩ | ⟨-, hj⟩
    · rfl
    · rw [h.free hj] at hx
      exact absurd hx (by simp)

/-- The thread that holds the lock gives it back. -/
theorem release (h : LockOk holds owner ls) (hi : ls[i]? = some l) (hl : holds l = true)
    (hm : holds m = false) : LockOk holds none (ls.set i m) := by
  intro j
  constructor
  · intro hnone
    exact absurd hnone (by simp)
  · intro hex
    obtain ⟨x, hj, hx⟩ := hex
    rcases getElem?_set_cases hj with ⟨rfl, rfl⟩ | ⟨hne, hj⟩
    · rw [hm] at hx
      exact absurd hx (by simp)
    · exact absurd (h.unique hj hx hi hl) hne

/-- Threads that change without regard to the lock. -/
theorem congr (h : LockOk holds owner ls)
    (hf : ∀ (j : Nat) x, ls'[j]? = some x → ∃ l, ls[j]? = some l ∧ holds x = holds l)
    (hb : ∀ (j : Nat) l, ls[j]? = some l → ∃ x, ls'[j]? = some x ∧ holds x = holds l) :
    LockOk holds owner ls' := by
  intro j
  rw [h j]
  constructor
  · intro hex
    obtain ⟨l, hj, hl⟩ := hex
    obtain ⟨x, hx, heq⟩ := hb j l hj
    exact ⟨x, hx, heq.trans hl⟩
  · intro hex
    obtain ⟨x, hj, hx⟩ := hex
    obtain ⟨l, hl, heq⟩ := hf j x hj
    exact ⟨l, hl, heq ▸ hx⟩

variable {parked : τ → Bool} {wake : τ → τ}

theorem notifyOne (h : LockOk holds owner ls) {w : Option Nat}
    (hwake : ∀ l, parked l = true → holds (wake l) = holds l)
    (hn : Lib.notifyOne parked wake ls w = some ls') : LockOk holds owner ls' := by
  refine h.congr (fun j x hx => ?_) (fun j l hl => ?_)
  · obtain ⟨l, hl, rfl | ⟨hp, rfl⟩⟩ := getElem?_notifyOne hn hx
    · exact ⟨x, hl, rfl⟩
    · exact ⟨l, hl, hwake l hp⟩
  · obtain ⟨x, hx, rfl | ⟨hp, rfl⟩⟩ := notifyOne_getElem? hn hl
    · exact ⟨x, hx, rfl⟩
    · exact ⟨wake l, hx, hwake l hp⟩

theorem notifyAll (h : LockOk holds owner ls)
    (hwake : ∀ l, parked l = true → holds (wake l) = holds l) :
    LockOk holds owner (Lib.notifyAll parked wake ls) := by
  refine h.congr (fun j x hx => ?_) (fun j l hl => ?_)
  · obtain ⟨l, hl, rfl | ⟨hp, rfl⟩⟩ := getElem?_notifyAll hx
    · exact ⟨x, hl, rfl⟩
    · exact ⟨l, hl, hwake l hp⟩
  · obtain ⟨x, hx, rfl | ⟨hp, rfl⟩⟩ := @notifyAll_getElem? τ parked wake ls j l hl
    · exact ⟨x, hx, rfl⟩
    · exact ⟨wake l, hx, hwake l hp⟩

end LockOk

end AsioServer.Lib
