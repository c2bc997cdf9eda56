/-
AsioServer.Lib.Climb — a rotation of numbered files that stops in its middle.

`climb slot c m` has done the first `m` of `c` renames: slot `c - 1` to slot `c`, the slot
below it to slot `c - 1`, and so on down to slot 0. `held` lists what is in the first slots,
without the missing ones.

Only the first rename can overwrite a file, since each of the others goes to the slot that
the one before it has left. So wherever the climb stops, what is held is what was held
before it, in the same order, without the last content at most (`held_climb`), and it is not
nothing (`held_climb_ne_nil`).
-/
import AsioServer.Lib.Files
import Mathlib.Data.List.Infix

namespace AsioServer.Lib.Files

variable {π γ : Type*} {slot : Nat → π} {fs fs' : Files π γ} {a c m n : Nat}

/-! ## What is held -/

/-- What is in the slots below `n`. -/
def held (slot : Nat → π) (fs : Files π γ) (n : Nat) : List (List γ) :=
  (List.range n).filterMap fun i => fs (slot i)

theorem held_succ (slot : Nat → π) (fs : Files π γ) (n : Nat) :
    held slot fs (n + 1) = held slot fs n ++ (fs (slot n)).toList := by
  rw [held, List.range_succ, List.filterMap_append, held]
  cases h : fs (slot n) <;> simp [h]

theorem held_cons (slot : Nat → π) (fs : Files π γ) (n : Nat) :
    held slot fs (n + 1) = (fs (slot 0)).toList ++ held (fun i => slot (i + 1)) fs n := by
  rw [held, List.range_succ_eq_map, List.filterMap_cons, List.filterMap_map, held]
  cases h : fs (slot 0) <;> rfl

theorem held_congr (h : ∀ i < n, fs (slot i) = fs' (slot i)) : held slot fs n = held slot fs' n :=
  List.filterMap_congr fun i hi => h i (List.mem_range.mp hi)

variable [DecidableEq π]

/-! ## One rename -/

/-- A rename to a free slot moves no content past another. -/
theorem held_rename_free (hslot : Function.Injective slot) (hfree : fs (slot (a + 1)) = none)
    (hn : a + 1 < n) : held slot (fs.rename (slot a) (slot (a + 1))) n = held slot fs n := by
  have hg : ∀ i, fs (slot i) = fs (slot i) := fun _ => rfl
  have hrename := rename_slot hslot hg (Nat.ne_of_lt (Nat.lt_succ_self a))
  induction n with
  | zero => exact absurd hn (Nat.not_lt_zero _)
  | succ n ih =>
      rw [held_succ, held_succ, hrename n]
      rcases Nat.lt_or_eq_of_le (Nat.lt_succ_iff.mp hn) with hlt | rfl
      · rw [ih hlt, if_neg (by omega), if_neg (by omega)]
      · have hbelow : held slot (fs.rename (slot a) (slot (a + 1))) a = held slot fs a := by
          refine held_congr fun i hi => ?_
          rw [hrename i, if_neg (by omega), if_neg (by omega)]
        rw [held_succ, held_succ, hbelow, hrename a, if_pos rfl, if_neg (by omega), if_pos rfl,
          hfree]
        simp

/-- A rename to the last slot overwrites what is there, if there is something to rename. -/
theorem held_rename_last (hslot : Function.Injective slot) (a : Nat) :
    held slot (fs.rename (slot a) (slot (a + 1))) (a + 2) =
      if (fs (slot a)).isSome then held slot fs (a + 1) else held slot fs (a + 2) := by
  have hg : ∀ i, fs (slot i) = fs (slot i) := fun _ => rfl
  have hrename := rename_slot hslot hg (Nat.ne_of_lt (Nat.lt_succ_self a))
  have hbelow : held slot (fs.rename (slot a) (slot (a + 1))) a = held slot fs a := by
    refine held_congr fun i hi => ?_
    rw [hrename i, if_neg (by omega), if_neg (by omega)]
  rw [held_succ, held_succ, hbelow, hrename a, hrename (a + 1), if_neg (by omega), if_pos rfl,
    if_pos rfl]
  cases h : fs (slot a) <;> simp [held_succ, h]

/-! ## The climb -/

/-- The first `m` of the renames from slot `c - 1` down to slot 0. -/
def climb (slot : Nat → π) : Nat → Nat → Files π γ → Files π γ
  | 0, _, fs => fs
  | _ + 1, 0, fs => fs
  | c + 1, m + 1, fs => climb slot c m (fs.rename (slot c) (slot (c + 1)))

/-- All the renames are those of a rotation. -/
theorem climb_all (slot : Nat → π) (n : Nat) (fs : Files π γ) :
    climb slot (n + 1) (n + 1) fs = (shift slot n fs).rename (slot 0) (slot 1) := by
  induction n generalizing fs with
  | zero => rfl
  | succ n ih => rw [climb, ih, shift]

/-- No other file is touched. -/
theorem climb_other {p : π} (hp : ∀ i ≤ c, p ≠ slot i) : climb slot c m fs p = fs p := by
  induction c generalizing m fs with
  | zero => rfl
  | succ c ih =>
      cases m with
      | zero => rfl
      | succ m =>
          have hrename : fs.rename (slot c) (slot (c + 1)) p = fs p := by
            unfold rename
            split
            · rw [Function.update_of_ne (hp (c + 1) (Nat.le_refl _)),
                Function.update_of_ne (hp c (Nat.le_succ c))]
            · rfl
          rw [climb, ih fun i hi => hp i (Nat.le_succ_of_le hi), hrename]

/-- Slot 0 is the last one to move. -/
theorem climb_slot_zero (hslot : Function.Injective slot) :
    climb slot (c + 1) m fs (slot 0) = if m ≤ c then fs (slot 0) else none := by
  induction c generalizing m fs with
  | zero =>
      have hg : ∀ j, fs (slot j) = fs (slot j) := fun _ => rfl
      cases m with
      | zero => rfl
      | succ m =>
          rw [climb, if_neg (by omega)]
          exact (rename_slot hslot hg Nat.zero_ne_one 0).trans
            (by rw [if_neg (by omega), if_pos rfl])
  | succ c ih =>
      have hg : ∀ j, fs (slot j) = fs (slot j) := fun _ => rfl
      cases m with
      | zero => rfl
      | succ m =>
          have hsame : fs.rename (slot (c + 1)) (slot (c + 2)) (slot 0) = fs (slot 0) := by
            rw [rename_slot hslot hg (Nat.ne_of_lt (Nat.lt_succ_self (c + 1))),
              if_neg (by omega), if_neg (by omega)]
          rw [climb, ih, hsame]
          simp only [Nat.succ_le_succ_iff]

/-- **A climb to a free slot loses nothing**, wherever it stops. -/
theorem held_climb_free (hslot : Function.Injective slot) (hfree : fs (slot c) = none)
    (hn : c < n) : held slot (climb slot c m fs) n = held slot fs n := by
  induction c generalizing m fs with
  | zero => rfl
  | succ c ih =>
      cases m with
      | zero => rfl
      | succ m =>
          have hg : ∀ i, fs (slot i) = fs (slot i) := fun _ => rfl
          have hleft : fs.rename (slot c) (slot (c + 1)) (slot c) = none := by
            rw [rename_slot hslot hg (Nat.ne_of_lt (Nat.lt_succ_self c)), if_neg (by omega),
              if_pos rfl]
          rw [climb, ih hleft (by omega), held_rename_free hslot hfree hn]

/-- **Wherever a climb stops, it loses the last content at most**, and this one only to the
content below it. -/
theorem held_climb (hslot : Function.Injective slot) (c m : Nat) :
    held slot (climb slot c m fs) (c + 1) = held slot fs (c + 1) ∨
      (held slot (climb slot c m fs) (c + 1) = held slot fs c ∧ held slot fs c ≠ []) := by
  cases c with
  | zero => exact .inl rfl
  | succ c =>
      cases m with
      | zero => exact .inl rfl
      | succ m =>
          have hg : ∀ i, fs (slot i) = fs (slot i) := fun _ => rfl
          have hleft : fs.rename (slot c) (slot (c + 1)) (slot c) = none := by
            rw [rename_slot hslot hg (Nat.ne_of_lt (Nat.lt_succ_self c)), if_neg (by omega),
              if_pos rfl]
          rw [climb, held_climb_free hslot hleft (by omega), held_rename_last hslot c]
          cases h : fs (slot c) with
          | none => exact .inl rfl
          | some bs => exact .inr ⟨rfl, by rw [held_succ, h]; simp⟩

theorem held_climb_prefix (hslot : Function.Injective slot) (c m : Nat) :
    held slot (climb slot c m fs) (c + 1) <+: held slot fs (c + 1) := by
  rcases held_climb hslot c m with h | ⟨h, -⟩
  · rw [h]
  · rw [h, held_succ]
    exact List.prefix_append _ _

theorem held_climb_ne_nil (hslot : Function.Injective slot) (c m : Nat)
    (hne : held slot fs (c + 1) ≠ []) : held slot (climb slot c m fs) (c + 1) ≠ [] := by
  rcases held_climb hslot c m with h | ⟨h, hsome⟩
  · rwa [h]
  · rwa [h]

/-- A climb that leaves slot 0 alone is one of the slots above it. -/
theorem climb_succ_of_le (hm : m ≤ c) :
    climb slot (c + 1) m fs = climb (fun i => slot (i + 1)) c m fs := by
  induction c generalizing m fs with
  | zero =>
      obtain rfl := Nat.le_zero.mp hm
      rfl
  | succ c ih =>
      cases m with
      | zero => rfl
      | succ m =>
          rw [climb, climb]
          exact ih (Nat.le_of_succ_le_succ hm)

/-! ## The file in use -/

/-- A file that is missing is there with nothing in it once it has been opened. -/
theorem openAppend_slot_zero (fs : Files π γ) (slot : Nat → π) :
    fs.openAppend (slot 0) (slot 0) = some ((fs (slot 0)).getD []) :=
  Function.update_self _ _ _

theorem held_openAppend (hslot : Function.Injective slot) (fs : Files π γ) (n : Nat) :
    held (fun i => slot (i + 1)) (fs.openAppend (slot 0)) n =
      held (fun i => slot (i + 1)) fs n :=
  held_congr fun i _ => Function.update_of_ne (fun heq => Nat.succ_ne_zero i (hslot heq)) _ _

theorem held_append (hslot : Function.Injective slot) (fs : Files π γ) (bs : List γ) (n : Nat) :
    held (fun i => slot (i + 1)) (fs.append (slot 0) bs) n = held (fun i => slot (i + 1)) fs n :=
  held_congr fun i _ => Function.update_of_ne (fun heq => Nat.succ_ne_zero i (hslot heq)) _ _

end AsioServer.Lib.Files
