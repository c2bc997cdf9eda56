/-
AsioServer.Lib.OrderedMap — a map as the list of its entries in the order of the keys.

`assign` inserts or replaces the value of a key at its place, and `ofList`
assigns the entries of a list one after the other. Both keep the order
(`sorted_assign`, `sorted_ofList`). A list that is in order already is its own
map (`ofList_of_sorted`), and a key that occurs several times keeps the value it
was given last (`lookup_ofList`). Two maps that find the same are the same
(`eq_of_lookup_eq`).

The keys are any type with a linear order.
-/
import Mathlib.Data.List.Induction

namespace AsioServer.Lib.OrderedMap

variable {κ ν : Type*} [LT κ] [DecidableEq κ] [DecidableLT κ]

/-- Insert an entry at its place, or replace the value of its key. -/
def assign (k : κ) (v : ν) : List (κ × ν) → List (κ × ν)
  | [] => [(k, v)]
  | (key, value) :: t =>
      if k = key then (key, v) :: t
      else if k < key then (k, v) :: (key, value) :: t
      else (key, value) :: assign k v t

/-- The map with the entries of a list, assigned in turn. -/
def ofList (l : List (κ × ν)) : List (κ × ν) := l.foldl (fun t e => assign e.1 e.2 t) []

/-- The keys stand in their order, each once. -/
def Sorted (t : List (κ × ν)) : Prop := t.Pairwise fun a b => a.1 < b.1

instance (t : List (κ × ν)) : Decidable (Sorted t) :=
  inferInstanceAs (Decidable (t.Pairwise fun a b => a.1 < b.1))

variable {t l : List (κ × ν)} {k k' : κ} {v : ν} {e : κ × ν}

theorem ofList_append (l : List (κ × ν)) (k : κ) (v : ν) :
    ofList (l ++ [(k, v)]) = assign k v (ofList l) := by
  simp [ofList, List.foldl_append]

omit [DecidableEq κ] [DecidableLT κ] in
/-- Only the keys count. -/
theorem sorted_of_keys {keys : List κ} (h : keys.Pairwise (· < ·))
    (hkeys : t.map Prod.fst = keys) : Sorted t := by
  subst hkeys
  exact List.pairwise_map.mp h

/-! ## Entries -/

theorem mem_of_assign (h : e ∈ assign k v t) : e = (k, v) ∨ e ∈ t := by
  induction t with
  | nil => exact Or.inl (List.mem_singleton.mp h)
  | cons first t ih =>
      obtain ⟨key, value⟩ := first
      rw [assign] at h
      split at h
      · next heq =>
        subst heq
        rcases List.mem_cons.mp h with h | h
        · exact Or.inl h
        · exact Or.inr (List.mem_cons_of_mem _ h)
      · split at h
        · exact List.mem_cons.mp h
        · rcases List.mem_cons.mp h with h | h
          · exact Or.inr (h ▸ List.mem_cons_self)
          · exact (ih h).imp_right (List.mem_cons_of_mem _)

theorem mem_of_foldl (h : e ∈ l.foldl (fun t e => assign e.1 e.2 t) t) : e ∈ t ∨ e ∈ l := by
  induction l generalizing t with
  | nil => exact Or.inl h
  | cons first l ih =>
      rcases ih h with h | h
      · rcases mem_of_assign h with rfl | h
        · exact Or.inr List.mem_cons_self
        · exact Or.inl h
      · exact Or.inr (List.mem_cons_of_mem _ h)

theorem mem_of_ofList (h : e ∈ ofList l) : e ∈ l :=
  (mem_of_foldl h).resolve_left (by simp)

/-! ## Order -/

section

variable [LE κ] [Std.IsLinearOrder κ] [Std.LawfulOrderLT κ]

theorem sorted_assign (h : Sorted t) : Sorted (assign k v t) := by
  induction t with
  | nil => exact List.pairwise_singleton _ _
  | cons first t ih =>
      obtain ⟨key, value⟩ := first
      obtain ⟨hfirst, ht⟩ := List.pairwise_cons.mp h
      rw [assign]
      split
      · exact List.pairwise_cons.mpr ⟨hfirst, ht⟩
      · next hne =>
        split
        · next hlt =>
          refine List.pairwise_cons.mpr ⟨fun e he => ?_, h⟩
          rcases List.mem_cons.mp he with rfl | he
          · exact hlt
          · exact Std.lt_trans hlt (hfirst e he)
        · next hlt =>
          refine List.pairwise_cons.mpr ⟨fun e he => ?_, ih ht⟩
          rcases mem_of_assign he with rfl | he
          · exact Std.lt_of_le_of_ne (Std.not_lt.mp hlt) (Ne.symm hne)
          · exact hfirst e he

theorem sorted_foldl (h : Sorted t) : Sorted (l.foldl (fun t e => assign e.1 e.2 t) t) := by
  induction l generalizing t with
  | nil => exact h
  | cons e l ih => exact ih (sorted_assign h)

theorem sorted_ofList (l : List (κ × ν)) : Sorted (ofList l) := sorted_foldl List.Pairwise.nil

/-- A key above all others goes to the end. -/
theorem assign_of_lt (h : ∀ e ∈ t, e.1 < k) : assign k v t = t ++ [(k, v)] := by
  induction t with
  | nil => rfl
  | cons first t ih =>
      obtain ⟨key, value⟩ := first
      have hkey : key < k := h _ List.mem_cons_self
      have hne : k ≠ key := fun heq => Std.lt_irrefl (heq ▸ hkey)
      have hlt : ¬ k < key := fun hlt => Std.lt_irrefl (Std.lt_trans hlt hkey)
      rw [assign, if_neg hne, if_neg hlt, ih fun e he => h e (List.mem_cons_of_mem _ he)]
      rfl

theorem foldl_of_sorted (h : Sorted (t ++ l)) :
    l.foldl (fun t e => assign e.1 e.2 t) t = t ++ l := by
  induction l generalizing t with
  | nil => simp
  | cons e l ih =>
      have hbefore : ∀ d ∈ t, d.1 < e.1 := fun d hd =>
        (List.pairwise_append.mp h).2.2 d hd e List.mem_cons_self
      have hrest : Sorted ((t ++ [e]) ++ l) := by rwa [List.append_assoc]
      rw [List.foldl_cons, assign_of_lt hbefore, ih hrest, List.append_assoc]
      rfl

/-- **A list in order is its own map.** -/
theorem ofList_of_sorted (h : Sorted l) : ofList l = l := foldl_of_sorted h

end

/-! ## Lookup -/

section

variable [BEq κ] [LawfulBEq κ]

theorem lookup_assign_self : (assign k v t).lookup k = some v := by
  induction t with
  | nil => simp [assign]
  | cons first t ih =>
      obtain ⟨key, value⟩ := first
      rw [assign]
      split
      · next heq => simp [heq]
      · next hne =>
        split
        · simp
        · rw [List.lookup_cons, beq_false_of_ne hne]
          exact ih

theorem lookup_assign_ne (h : k' ≠ k) : (assign k v t).lookup k' = t.lookup k' := by
  induction t with
  | nil => simp [assign, h]
  | cons first t ih =>
      obtain ⟨key, value⟩ := first
      rw [assign]
      split
      · next heq =>
        subst heq
        rw [List.lookup_cons, List.lookup_cons, beq_false_of_ne h]
      · split
        · rw [List.lookup_cons, beq_false_of_ne h]
        · rw [List.lookup_cons, List.lookup_cons, ih]

/-- **The value that was assigned last** is the one that is found. -/
theorem lookup_ofList (l : List (κ × ν)) (k : κ) : (ofList l).lookup k = l.reverse.lookup k := by
  induction l using List.reverseRecOn with
  | nil => rfl
  | append_singleton l e ih =>
      rw [ofList_append l e.1 e.2, List.reverse_append, List.reverse_singleton,
        List.singleton_append]
      by_cases hk : k = e.1
      · subst hk
        rw [lookup_assign_self, List.lookup_cons, beq_self_eq_true]
      · rw [lookup_assign_ne hk, List.lookup_cons, beq_false_of_ne hk, ih]

omit [DecidableEq κ] [DecidableLT κ] in
theorem lookup_of_lt [LE κ] [Std.IsLinearOrder κ] [Std.LawfulOrderLT κ] (h : ∀ e ∈ t, k < e.1) :
    t.lookup k = none := by
  refine List.lookup_eq_none_iff.mpr fun e he => bne_iff_ne.mpr ?_
  rintro rfl
  exact Std.lt_irrefl (h e he)

omit [DecidableEq κ] [DecidableLT κ] in
/-- **A map is what it finds.** -/
theorem eq_of_lookup_eq [LE κ] [Std.IsLinearOrder κ] [Std.LawfulOrderLT κ]
    {t' : List (κ × ν)} (h : Sorted t) (h' : Sorted t')
    (heq : ∀ k, t.lookup k = t'.lookup k) : t = t' := by
  induction t generalizing t' with
  | nil =>
      cases t' with
      | nil => rfl
      | cons e t' =>
          have hsome : (e :: t').lookup e.1 = some e.2 := List.lookup_cons_self
          exact absurd (heq e.1) (by simp [hsome])
  | cons e t ih =>
      obtain ⟨hfirst, ht⟩ := List.pairwise_cons.mp h
      cases t' with
      | nil =>
          have hsome : (e :: t).lookup e.1 = some e.2 := List.lookup_cons_self
          exact absurd (heq e.1) (by simp [hsome])
      | cons e' t' =>
          obtain ⟨hfirst', ht'⟩ := List.pairwise_cons.mp h'
          -- neither of the first keys is below the other, or it would not be found there
          have hle : ¬ e.1 < e'.1 := fun hlt => by
            have hnone : (e' :: t').lookup e.1 = none := lookup_of_lt fun d hd => by
              rcases List.mem_cons.mp hd with rfl | hd
              · exact hlt
              · exact Std.lt_trans hlt (hfirst' d hd)
            have hsome := heq e.1
            rw [hnone, List.lookup_cons, beq_self_eq_true] at hsome
            exact absurd hsome (by simp)
          have hge : ¬ e'.1 < e.1 := fun hlt => by
            have hnone : (e :: t).lookup e'.1 = none := lookup_of_lt fun d hd => by
              rcases List.mem_cons.mp hd with rfl | hd
              · exact hlt
              · exact Std.lt_trans hlt (hfirst d hd)
            have hsome := heq e'.1
            rw [hnone, List.lookup_cons, beq_self_eq_true] at hsome
            exact absurd hsome (by simp)
          have hkey : e.1 = e'.1 := Std.le_antisymm (Std.not_lt.mp hge) (Std.not_lt.mp hle)
          have hvalue : e.2 = e'.2 := by
            have hfound := heq e.1
            rw [List.lookup_cons, List.lookup_cons, beq_self_eq_true, hkey, beq_self_eq_true]
              at hfound
            exact Option.some.inj hfound
          have htail : t = t' := ih ht ht' fun k => by
            by_cases hk : k = e.1
            · rw [hk, lookup_of_lt hfirst, hkey, lookup_of_lt hfirst']
            · have hfound := heq k
              rwa [List.lookup_cons, List.lookup_cons, beq_false_of_ne hk,
                beq_false_of_ne (hkey ▸ hk)] at hfound
          rw [htail, Prod.ext hkey hvalue]

end

end AsioServer.Lib.OrderedMap
