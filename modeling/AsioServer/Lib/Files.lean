/-
AsioServer.Lib.Files — a directory, and the rotation of numbered files.

`Files` gives the content of every file that exists. `rename` replaces the
target, `openAppend` creates a missing file, `append` writes at the end.

A rotation has slots: slot 0 is the file in use, slot `i` the backup number `i`.
`shift n` renames slot `i` to slot `i + 1` for `i` from `n` down to 1, so that no
file is overwritten before it has moved; `rotate_backups` says what a rotation
leaves in each slot, whichever of them were empty. `rotate_slot` is the rule for
a whole rotation: if the slots hold the newest contents of a list, they do so
again for the list with an empty content in front, whatever was at the last slot.
-/
import Mathlib.Logic.Function.Basic
import Mathlib.Data.List.Basic

namespace AsioServer.Lib

variable {π γ : Type*} [DecidableEq π]

/-- The contents of the files that exist. -/
abbrev Files (π γ : Type*) := π → Option (List γ)

namespace Files

/-- `rename`, when the source exists. -/
def rename (fs : Files π γ) (src dst : π) : Files π γ :=
  if (fs src).isSome then Function.update (Function.update fs src none) dst (fs src) else fs

/-- Open for appending: a missing file is created. -/
def openAppend (fs : Files π γ) (p : π) : Files π γ :=
  Function.update fs p (some ((fs p).getD []))

/-- Write at the end of a file that exists. -/
def append (fs : Files π γ) (p : π) (bs : List γ) : Files π γ :=
  Function.update fs p ((fs p).map (· ++ bs))

/-- Rename slot `i` to slot `i + 1`, for `i` from `n` down to 1. -/
def shift (slot : Nat → π) : Nat → Files π γ → Files π γ
  | 0, fs => fs
  | n + 1, fs => shift slot n (fs.rename (slot (n + 1)) (slot (n + 2)))

/-- One rotation with `n + 1` backups: shift them, make the file in use the first
one, and begin a new file. -/
def rotate (slot : Nat → π) (n : Nat) (fs : Files π γ) : Files π γ :=
  ((shift slot n fs).rename (slot 0) (slot 1)).openAppend (slot 0)

variable {slot : Nat → π} {fs : Files π γ} {g : Nat → Option (List γ)}

/-- The slots after one of them has been renamed. -/
theorem rename_slot (hslot : Function.Injective slot) (hg : ∀ i, fs (slot i) = g i)
    {a b : Nat} (hab : a ≠ b) (i : Nat) :
    fs.rename (slot a) (slot b) (slot i) =
      if i = b then (g a).or (g b) else if i = a then none else g i := by
  unfold rename
  have hne : slot a ≠ slot b := fun heq => hab (hslot heq)
  rw [hg a]
  split
  · next hsome =>
    obtain ⟨c, hc⟩ := Option.isSome_iff_exists.mp hsome
    by_cases hib : i = b
    · subst hib
      simp [hc]
    · have hib' : slot i ≠ slot b := fun heq => hib (hslot heq)
      rw [Function.update_of_ne hib', if_neg hib]
      by_cases hia : i = a
      · subst hia
        simp
      · have hia' : slot i ≠ slot a := fun heq => hia (hslot heq)
        rw [Function.update_of_ne hia', if_neg hia, hg]
  · next hsome =>
    have ha : g a = none := by simpa using hsome
    rw [hg]
    by_cases hib : i = b
    · rw [if_pos hib, hib, ha, Option.none_or]
    · rw [if_neg hib]
      by_cases hia : i = a
      · rw [if_pos hia, hia, ha]
      · rw [if_neg hia]

/-- What the shift leaves in slot `i`. A gap only shows at the end: slot `n + 1` is
overwritten when there is something at slot `n`. -/
def shifted (n : Nat) (g : Nat → Option (List γ)) (i : Nat) : Option (List γ) :=
  if i = 0 ∨ n + 1 < i ∨ n = 0 then g i
  else if i = 1 then none
  else if i = n + 1 then (g n).or (g (n + 1))
  else g (i - 1)

/-- **The shift**: what was at `i` is at `i + 1` afterwards, and slot 1 is free. -/
theorem shift_slot (hslot : Function.Injective slot) (n : Nat) (hg : ∀ i, fs (slot i) = g i)
    (i : Nat) : shift slot n fs (slot i) = shifted n g i := by
  induction n generalizing fs g i with
  | zero => simp [shift, shifted, hg]
  | succ n ih =>
      have hfirst := rename_slot hslot hg (show n + 1 ≠ n + 2 by omega)
      rw [shift, ih hfirst]
      unfold shifted
      dsimp only
      by_cases hout : i = 0 ∨ n + 2 < i
      · rw [if_pos (show i = 0 ∨ n + 1 < i ∨ n = 0 by omega), if_neg (show ¬ i = n + 2 by omega),
          if_neg (show ¬ i = n + 1 by omega), if_pos (by omega)]
      · rw [if_neg (show ¬ (i = 0 ∨ n + 1 + 1 < i ∨ n + 1 = 0) by omega)]
        by_cases hone : i = 1
        · subst hone
          rw [if_neg (show ¬ 1 = n + 2 by omega)]
          by_cases hn : n = 0
          · subst hn
            rfl
          · rw [if_neg (by omega), if_pos rfl, if_pos rfl]
        · by_cases hlast : i = n + 2
          · rw [if_pos (by omega), if_pos hlast, if_neg hone, if_pos hlast]
          · -- slot `n + 1` has been emptied, and what was in it has moved
            rw [if_neg (by omega), if_neg hone, if_neg hlast, if_neg (show ¬ n = n + 2 by omega),
              if_neg (show ¬ n = n + 1 by omega)]
            by_cases hmid : i = n + 1
            · subst hmid
              have hn : n ≠ 0 := by omega
              simp [hn]
            · rw [if_neg hmid, if_neg (show ¬ i - 1 = n + 2 by omega),
                if_neg (show ¬ i - 1 = n + 1 by omega), if_neg hone]

theorem shifted_of_gt {n i : Nat} (h : n + 1 < i) : shifted n g i = g i := if_pos (by omega)

theorem shifted_one {n : Nat} (h : 1 ≤ n) : shifted n g 1 = none := by
  rw [shifted, if_neg (by omega), if_pos rfl]

theorem shifted_succ {n i : Nat} (hi : 1 ≤ i) (h : i < n) : shifted n g (i + 1) = g i := by
  rw [shifted, if_neg (by omega), if_neg (by omega), if_neg (by omega)]
  rfl

theorem shifted_last {n : Nat} (h : 1 ≤ n) : shifted n g (n + 1) = (g n).or (g (n + 1)) := by
  rw [shifted, if_neg (by omega), if_neg (by omega), if_pos rfl]

/-- Where there is nothing to move, the shift moves nothing. -/
theorem shifted_of_empty {n i : Nat} (h : ∀ j, 1 ≤ j → j ≤ n → g j = none) :
    shifted n g i = g i := by
  unfold shifted
  split
  · rfl
  · next hin =>
    split
    · next hone => rw [hone, h 1 (Nat.le_refl 1) (by omega)]
    · split
      · next hlast => rw [h n (by omega) (Nat.le_refl n), Option.none_or, hlast]
      · rw [h (i - 1) (by omega) (by omega), h i (by omega) (by omega)]

/-- **The backups after a rotation**, whatever is missing. -/
theorem rotate_backups (hslot : Function.Injective slot) (n : Nat) (hg : ∀ i, fs (slot i) = g i)
    (i : Nat) : (shift slot n fs).rename (slot 0) (slot 1) (slot i) =
      if i = 1 then (g 0).or (shifted n g 1) else if i = 0 then none else shifted n g i := by
  have hzero : shifted n g 0 = g 0 := if_pos (Or.inl rfl)
  rw [rename_slot hslot (shift_slot hslot n hg) (show (0 : Nat) ≠ 1 by decide), hzero]

/-- **The rotation rule.** -/
theorem rotate_slot (hslot : Function.Injective slot) (n : Nat) {l : List (List γ)} (hl : l ≠ [])
    (hfs : ∀ i, fs (slot i) = if i ≤ n + 1 then l[i]? else none) (i : Nat) :
    rotate slot n fs (slot i) = if i ≤ n + 1 then ([] :: l)[i]? else none := by
  obtain ⟨c, rest, rfl⟩ := List.exists_cons_of_ne_nil hl
  have hbackups := rotate_backups hslot n hfs
  unfold rotate openAppend
  by_cases hzero : i = 0
  · subst hzero
    rw [Function.update_self, hbackups]
    simp
  · rw [Function.update_of_ne (fun heq => hzero (hslot heq)), hbackups]
    obtain ⟨k, rfl⟩ := Nat.exists_eq_succ_of_ne_zero hzero
    rw [List.getElem?_cons_succ]
    by_cases hone : k = 0
    · subst hone
      simp
    · rw [if_neg (by omega), if_neg (by omega)]
      by_cases hout : n + 1 < k + 1
      · rw [shifted_of_gt hout, if_neg (by omega), if_neg (by omega)]
      · rw [if_pos (by omega)]
        unfold shifted
        rw [if_neg (by omega), if_neg (by omega)]
        by_cases hlast : k = n
        · -- no gaps: what is missing at `n` is missing at `n + 1`
          subst hlast
          rw [if_pos rfl]
          dsimp only
          rw [if_pos (by omega), if_pos (by omega)]
          cases hk : (c :: rest)[k]? with
          | some x => rfl
          | none =>
              rw [List.getElem?_eq_none_iff] at hk
              rw [Option.none_or, List.getElem?_eq_none_iff]
              omega
        · rw [if_neg (by omega)]
          exact if_pos (show k ≤ n + 1 by omega)

end Files

end AsioServer.Lib
