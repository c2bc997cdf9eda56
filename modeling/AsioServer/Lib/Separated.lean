/-
AsioServer.Lib.Separated — three parts joined by two separators.

`joined a b front middle back` is `front a middle b back`. When the middle part holds
neither separator, two such lists are equal for one of three reasons
(`joined_eq_iff`): their parts are equal, or the separators and the middle of one of
them stand inside an outer part of the other (`Shifted`).
-/
import Mathlib.Data.List.Basic

namespace AsioServer.Lib

variable {α : Type*} {a b : α} {front middle back front' middle' back' : List α}

/-- The parts with the separators between them. -/
def joined (a b : α) (front middle back : List α) : List α :=
  front ++ a :: (middle ++ b :: back)

/-- The front part of the second list holds the separators of the first, and the back
part of the first those of the second. -/
def Shifted (a b : α) (front middle back front' middle' back' : List α) : Prop :=
  ∃ between, front' = joined a b front middle between ∧ back = joined a b between middle' back'

/-- A list cut at the first `b`. -/
theorem append_cons_inj (hm : b ∉ middle) (hm' : b ∉ middle')
    (h : middle ++ b :: back = middle' ++ b :: back') : middle = middle' ∧ back = back' := by
  induction middle generalizing middle' with
  | nil =>
      cases middle' with
      | nil => exact ⟨rfl, (List.cons.inj h).2⟩
      | cons x xs =>
          have hx : b = x := (List.cons.inj h).1
          exact absurd (List.mem_cons_self) (hx ▸ hm')
  | cons x xs ih =>
      cases middle' with
      | nil =>
          have hx : x = b := (List.cons.inj h).1
          exact absurd (List.mem_cons_self) (hx ▸ hm)
      | cons y ys =>
          obtain ⟨hhead, htail⟩ := List.cons.inj h
          obtain ⟨htails, hback⟩ := ih (fun hb => hm (List.mem_cons_of_mem _ hb))
            (fun hb => hm' (List.mem_cons_of_mem _ hb)) htail
          exact ⟨by rw [hhead, htails], hback⟩

/-- When the second front part is longer, the separators of the first stand inside it. -/
theorem shifted_of_append {w : List α} (ha : a ∉ middle) (hab : a ≠ b) (hw : w ≠ [])
    (h : a :: (middle ++ b :: back) = w ++ a :: (middle' ++ b :: back')) :
    Shifted a b front middle back (front ++ w) middle' back' := by
  obtain ⟨x, w, rfl⟩ := List.exists_cons_of_ne_nil hw
  obtain ⟨rfl, htail⟩ := List.cons.inj h
  rcases List.append_eq_append_iff.mp htail with ⟨x, hx, hrest⟩ | ⟨x, hx, hrest⟩
  · cases x with
    | nil => exact absurd (List.cons.inj hrest).1.symm hab
    | cons y x =>
        obtain ⟨rfl, hback⟩ := List.cons.inj hrest
        exact ⟨x, by rw [hx]; rfl, hback⟩
  · cases x with
    | nil => exact absurd (List.cons.inj hrest).1 hab
    | cons y x =>
        have hmem : y ∈ middle := by rw [hx]; simp
        exact absurd ((List.cons.inj hrest).1 ▸ hmem) ha

theorem Shifted.eq (h : Shifted a b front middle back front' middle' back') :
    joined a b front middle back = joined a b front' middle' back' := by
  obtain ⟨between, rfl, rfl⟩ := h
  simp [joined]

/-- The parts themselves differ then. -/
theorem Shifted.front_ne (h : Shifted a b front middle back front' middle' back') :
    front ≠ front' := by
  obtain ⟨between, rfl, -⟩ := h
  intro heq
  have hlen := congrArg List.length heq
  simp only [joined, List.length_append, List.length_cons] at hlen
  omega

/-- **When two joined lists are equal.** -/
theorem joined_eq_iff (hab : a ≠ b) (ha : a ∉ middle) (ha' : a ∉ middle') (hb : b ∉ middle)
    (hb' : b ∉ middle') :
    joined a b front middle back = joined a b front' middle' back' ↔
      (front = front' ∧ middle = middle' ∧ back = back') ∨
        Shifted a b front middle back front' middle' back' ∨
        Shifted a b front' middle' back' front middle back := by
  constructor
  · intro h
    rcases List.append_eq_append_iff.mp h with ⟨w, rfl, hrest⟩ | ⟨w, rfl, hrest⟩
    · by_cases hw : w = []
      · subst hw
        obtain ⟨hmiddle, hback⟩ := append_cons_inj hb hb' (List.cons.inj hrest).2
        exact Or.inl ⟨(List.append_nil front).symm, hmiddle, hback⟩
      · exact Or.inr (Or.inl (shifted_of_append ha hab hw hrest))
    · by_cases hw : w = []
      · subst hw
        obtain ⟨hmiddle, hback⟩ := append_cons_inj hb' hb (List.cons.inj hrest).2
        exact Or.inl ⟨List.append_nil front', hmiddle.symm, hback.symm⟩
      · exact Or.inr (Or.inr (shifted_of_append ha' hab hw hrest))
  · intro h
    rcases h with ⟨rfl, rfl, rfl⟩ | h | h
    · rfl
    · exact h.eq
    · exact h.eq.symm

end AsioServer.Lib
