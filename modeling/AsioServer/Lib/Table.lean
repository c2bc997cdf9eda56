/-
AsioServer.Lib.Table — association lists as maps.

A table is a list of keys with their values, and `List.lookup` answers the first
value of a key. `emplace` keeps what is there, `assign` replaces the value of a
key that is there, `erase` takes a key out.

A property of the values is kept by all three when the new value has it
(`mem_of_emplace`, `mem_of_assign`, `mem_of_erase`); which keys a table has after
`emplace` is `lookup_emplace_iff`.
-/
import Mathlib.Logic.Basic

namespace AsioServer.Lib.Table

variable {κ ν : Type*} [DecidableEq κ]

/-- Insert, unless the key is there. -/
def emplace (t : List (κ × ν)) (k : κ) (v : ν) : List (κ × ν) :=
  if (t.lookup k).isSome then t else t ++ [(k, v)]

/-- Replace the value of a key. -/
def assign (t : List (κ × ν)) (k : κ) (v : ν) : List (κ × ν) :=
  t.map fun e => if e.1 = k then (k, v) else e

/-- Take a key out. -/
def erase (t : List (κ × ν)) (k : κ) : List (κ × ν) := t.filter fun e => e.1 ≠ k

variable {t : List (κ × ν)} {k k' : κ} {v v' : ν} {e : κ × ν}

theorem mem_of_lookup (h : t.lookup k = some v) : (k, v) ∈ t := by
  induction t with
  | nil => exact absurd h (by simp)
  | cons first t ih =>
      obtain ⟨key, value⟩ := first
      rw [List.lookup_cons] at h
      split at h
      · next heq =>
        obtain rfl := eq_of_beq heq
        obtain rfl := Option.some.inj h
        exact List.mem_cons_self
      · exact List.mem_cons_of_mem _ (ih h)

/-! ## Values -/

theorem mem_of_emplace (h : e ∈ emplace t k v) : e ∈ t ∨ e = (k, v) := by
  unfold emplace at h
  split at h
  · exact Or.inl h
  · rcases List.mem_append.mp h with h | h
    · exact Or.inl h
    · exact Or.inr (List.mem_singleton.mp h)

theorem mem_of_assign (h : e ∈ assign t k v) : e ∈ t ∨ e = (k, v) := by
  obtain ⟨d, hd, rfl⟩ := List.mem_map.mp h
  by_cases hk : d.1 = k
  · exact Or.inr (if_pos hk)
  · rw [if_neg hk]
    exact Or.inl hd

theorem mem_of_erase (h : e ∈ erase t k) : e ∈ t := (List.mem_filter.mp h).1

/-! ## Keys -/

theorem lookup_emplace_iff :
    ((emplace t k v).lookup k').isSome = true ↔ (t.lookup k').isSome = true ∨ k' = k := by
  unfold emplace
  split
  · next h =>
    constructor
    · exact Or.inl
    · rintro (h' | rfl)
      · exact h'
      · exact h
  · by_cases hk : k' = k
    · simp [List.lookup_append, hk]
    · simp [List.lookup_append, hk]

theorem lookup_cons_ite : ((k', v) :: t).lookup k = if k = k' then some v else t.lookup k := by
  rw [List.lookup_cons]
  by_cases hk : k = k'
  · rw [if_pos hk, beq_iff_eq.mpr hk]
  · rw [if_neg hk, beq_eq_false_iff_ne.mpr hk]

theorem lookup_eq_none_iff : t.lookup k = none ↔ ∀ v, (k, v) ∉ t := by
  rw [List.lookup_eq_none_iff]
  constructor
  · intro h v hmem
    exact bne_iff_ne.mp (h (k, v) hmem) rfl
  · rintro h ⟨k', v⟩ hmem
    refine bne_iff_ne.mpr ?_
    rintro rfl
    exact h v hmem

/-- `emplace` enters no key twice. -/
theorem nodup_emplace (h : (t.map Prod.fst).Nodup) : ((emplace t k v).map Prod.fst).Nodup := by
  unfold emplace
  split
  · exact h
  · next hk =>
    have hnone : t.lookup k = none := Option.not_isSome_iff_eq_none.mp hk
    rw [List.map_append, List.map_singleton, List.nodup_append]
    refine ⟨h, by simp, fun a ha b hb => ?_⟩
    obtain ⟨⟨k', v'⟩, he, rfl⟩ := List.mem_map.mp ha
    obtain rfl : b = k := List.mem_singleton.mp hb
    rintro rfl
    exact lookup_eq_none_iff.mp hnone v' he

end AsioServer.Lib.Table
