/-
AsioServer.Infra.BackupTheorems — when a failed re-open costs a backup.

A roll whose re-open fails leaves no current file and the size above the limit, so the
next record rolls again: it finds no current file but shifts the backups all the same.
`append_backups` says what one `Append` leaves in every backup, whichever files are
missing and whether the re-open succeeds or not. `KeepsBackups` is what a call should do
to the backups, `RollsSafely` the exact condition for it (`keepsBackups_iff`).
-/
import AsioServer.Infra.FileAppenderTheorems
import AsioServer.Lib.Transition

namespace AsioServer.Infra

open AsioServer.Core AsioServer.Lib

/-- One call of `Append`, and whether a re-open in it succeeds. -/
structure AppendCall where
  event : LogEvent
  reopens : Bool

/-- `FileAppender::Append` as a step. -/
def appendStep (env : AppenderEnv) (s : AppenderState) (call : AppendCall) :
    Option AppenderState :=
  some (s.append env call.reopens call.event)

namespace AppenderState

variable {env : AppenderEnv} {s t : AppenderState} {call : AppendCall}

/-- The path does not change any more once it has been resolved. -/
def Canonical (env : AppenderEnv) (s : AppenderState) : Prop :=
  env.resolve s.app.filePath = s.app.filePath

/-- How many backups the loop of `RollFile` tries to move. -/
def moved (s : AppenderState) : Nat := (s.app.maxBackup - 1).toNat

theorem openFile_filePath (h : s.Canonical env) (ok : Bool) :
    (s.openFile env ok).app.filePath = s.app.filePath := by
  cases ok with
  | true => exact h
  | false => rfl

theorem slotPath_ne {filePath : Bytes} {i : Nat} (hi : 1 ≤ i) :
    slotPath filePath i ≠ filePath := by
  intro heq
  have hzero : slotPath filePath i = slotPath filePath 0 := heq
  have hi0 := slotPath_injective filePath hzero
  omega

/-- `OpenFile` touches the current file only. -/
theorem openFile_slot (h : s.Canonical env) (ok : Bool) {i : Nat} (hi : 1 ≤ i) :
    (s.openFile env ok).slot i = s.slot i := by
  unfold slot
  rw [openFile_filePath h]
  cases ok with
  | true =>
      have hpath : env.resolve s.app.filePath = s.app.filePath := h
      simp only [openFile, if_true, Files.openAppend, hpath]
      exact Function.update_of_ne (slotPath_ne hi) _ _
  | false => rfl

/-- A write touches the current file only. -/
theorem writeRecord_slot (text : Bytes) {i : Nat} (hi : 1 ≤ i) :
    (s.writeRecord text).slot i = s.slot i := by
  unfold slot writeRecord
  dsimp only
  split
  · exact Function.update_of_ne (slotPath_ne hi) _ _
  · rfl

/-- What `RollFile` leaves in the backups, whichever files were missing. -/
theorem rollFile_slot (h : s.Canonical env) (ok : Bool) {i : Nat} (hi : 1 ≤ i) :
    (s.rollFile env ok).slot i =
      if i = 1 then (s.slot 0).or (Files.shifted s.moved s.slot 1)
      else Files.shifted s.moved s.slot i := by
  have hslots : ∀ i, s.files (slotPath s.app.filePath i) = s.slot i := fun _ => rfl
  have hrotate := Files.rotate_backups (slotPath_injective s.app.filePath) s.moved hslots i
  rw [if_neg (show ¬ i = 0 by omega)] at hrotate
  have hopen : ∀ t : AppenderState, t.app.filePath = s.app.filePath →
      (t.openFile env ok).slot i = t.files (slotPath s.app.filePath i) := by
    intro t ht
    have hcanonical : t.Canonical env := by unfold Canonical; rw [ht]; exact h
    rw [openFile_slot hcanonical ok hi, slot, ht]
  rw [← hrotate, rollFile]
  dsimp only
  refine (hopen _ ?_).trans ?_
  · rfl
  · dsimp only
    rw [rename_current, renameBackups_eq_shift]
    rfl

/-- **What one `Append` leaves in the backups.** -/
theorem append_slot (h : s.Canonical env) (ok : Bool) (event : LogEvent) {i : Nat} (hi : 1 ≤ i) :
    (s.append env ok event).slot i =
      if s.mustRoll then
        if i = 1 then (s.slot 0).or (Files.shifted s.moved s.slot 1)
        else Files.shifted s.moved s.slot i
      else s.slot i := by
  unfold append
  rw [writeRecord_slot _ hi]
  split
  · exact rollFile_slot h ok hi
  · rfl

theorem canonical_append (h : s.Canonical env) (ok : Bool) (event : LogEvent) :
    (s.append env ok event).Canonical env := by
  have hroll : (s.rollFile env ok).Canonical env := by
    cases ok with
    | true => exact env.resolve_resolve _
    | false => exact h
  unfold append
  split
  · exact hroll
  · exact h

theorem canonical_make (files : Files Bytes UInt8) (filePath : Bytes) (maxSize : Nat)
    (maxBackup : Int) : (FileAppender.make env files filePath maxSize maxBackup).Canonical env :=
  env.resolve_resolve filePath

/-! ## Backups -/

/-- **What a call should do to the backups.** The content of a backup disappears only when
the call rotates a current file in and all `_maxBackup` backups were there; a roll that
finds no current file leaves the backups as they were. -/
structure KeepsBackups (s t : AppenderState) : Prop where
  kept : ∀ i c, 1 ≤ i → s.slot i = some c → (∃ j, 1 ≤ j ∧ t.slot j = some c) ∨
    (s.mustRoll = true ∧ (s.slot 0).isSome = true ∧
      ∀ j, 1 ≤ j → j ≤ s.app.maxBackup.toNat → (s.slot j).isSome = true)
  untouched : s.mustRoll = true → s.slot 0 = none → ∀ i, 1 ≤ i → t.slot i = s.slot i

/-- **The condition.** A roll without a current file finds nothing to shift. A roll with
one that shifts over the last backup finds all backups there, or what it overwrites is
also in another file. -/
structure RollsSafely (s : AppenderState) : Prop where
  missing : s.mustRoll = true → s.slot 0 = none →
    ∀ i, 1 ≤ i → i < s.app.maxBackup.toNat → s.slot i = none
  present : s.mustRoll = true → (s.slot 0).isSome = true → 2 ≤ s.app.maxBackup →
    (s.slot (s.app.maxBackup.toNat - 1)).isSome = true →
    (s.slot s.app.maxBackup.toNat).isSome = true →
    (∀ j, 1 ≤ j → j ≤ s.app.maxBackup.toNat → (s.slot j).isSome = true) ∨
      ∃ j, j ≠ s.app.maxBackup.toNat ∧ s.slot j = s.slot s.app.maxBackup.toNat

/-- Every file but the last backup survives a roll that shifts. -/
theorem survives (h : s.Canonical env) (hroll : s.mustRoll = true) (ok : Bool) (event : LogEvent)
    {j : Nat} {c : Bytes} (hmoved : 1 ≤ s.moved) (hj : j ≠ s.moved + 1) (hc : s.slot j = some c) :
    ∃ k, 1 ≤ k ∧ (s.append env ok event).slot k = some c := by
  by_cases hzero : j = 0
  · subst hzero
    refine ⟨1, le_refl 1, ?_⟩
    rw [append_slot h ok event (le_refl 1), if_pos hroll, if_pos rfl, hc, Option.some_or]
  · by_cases hin : j ≤ s.moved
    · refine ⟨j + 1, by omega, ?_⟩
      rw [append_slot h ok event (by omega), if_pos hroll, if_neg (by omega)]
      by_cases hlast : j = s.moved
      · rw [hlast, Files.shifted_last hmoved, ← hlast, hc, Option.some_or]
      · rw [Files.shifted_succ (by omega) (by omega), hc]
    · refine ⟨j, by omega, ?_⟩
      rw [append_slot h ok event (by omega), if_pos hroll, if_neg (by omega),
        Files.shifted_of_gt (by omega), hc]

/-- And whatever is in a backup afterwards was in another file than the last backup, when
the last two were both there. -/
theorem source (h : s.Canonical env) (hroll : s.mustRoll = true) (ok : Bool) (event : LogEvent)
    {k : Nat} {c : Bytes} (hmoved : 1 ≤ s.moved) (hfull : (s.slot s.moved).isSome = true)
    (hk : 1 ≤ k) (hc : (s.append env ok event).slot k = some c) :
    ∃ j, j ≠ s.moved + 1 ∧ s.slot j = some c := by
  rw [append_slot h ok event hk, if_pos hroll] at hc
  split at hc
  · rw [Files.shifted_one hmoved, Option.or_none] at hc
    exact ⟨0, by omega, hc⟩
  · obtain ⟨j, rfl⟩ : ∃ j, k = j + 1 := ⟨k - 1, by omega⟩
    by_cases hin : j < s.moved
    · rw [Files.shifted_succ (by omega) hin] at hc
      exact ⟨j, by omega, hc⟩
    · by_cases hlast : j = s.moved
      · obtain ⟨b, hb⟩ := Option.isSome_iff_exists.mp hfull
        rw [hlast, Files.shifted_last hmoved, hb, Option.some_or] at hc
        exact ⟨s.moved, by omega, hb.trans hc⟩
      · rw [Files.shifted_of_gt (by omega)] at hc
        exact ⟨j + 1, by omega, hc⟩

/-- A roll without a current file leaves the backups as they were exactly when there was
nothing to shift. -/
theorem untouched_iff (h : s.Canonical env) (hroll : s.mustRoll = true) (hnone : s.slot 0 = none)
    (ok : Bool) (event : LogEvent) :
    (∀ i, 1 ≤ i → (s.append env ok event).slot i = s.slot i) ↔
      ∀ i, 1 ≤ i → i ≤ s.moved → s.slot i = none := by
  constructor
  · intro hsame i hi
    induction i with
    | zero => exact absurd hi (by omega)
    | succ i ih =>
        -- from below: what is missing at `i` is missing at `i + 1` afterwards
        intro hle
        rw [← hsame (i + 1) hi, append_slot h ok event hi, if_pos hroll]
        by_cases hzero : i = 0
        · subst hzero
          rw [if_pos rfl, hnone, Option.none_or, Files.shifted_one (by omega)]
        · rw [if_neg (by omega), Files.shifted_succ (by omega) (by omega)]
          exact ih (by omega) (by omega)
  · intro hempty i hi
    rw [append_slot h ok event hi, if_pos hroll, hnone, Option.none_or,
      Files.shifted_of_empty hempty, Files.shifted_of_empty hempty]
    split
    · next hone => rw [hone]
    · rfl

/-- A roll keeps the contents of the backups exactly when the last backup is not
overwritten, or is one of a full set, or its content is in another file too. -/
theorem kept_iff (h : s.Canonical env) (hroll : s.mustRoll = true) (ok : Bool)
    (event : LogEvent) :
    (∀ i c, 1 ≤ i → s.slot i = some c →
      (∃ j, 1 ≤ j ∧ (s.append env ok event).slot j = some c) ∨
        ∀ j, 1 ≤ j → j ≤ s.app.maxBackup.toNat → (s.slot j).isSome = true) ↔
    (2 ≤ s.app.maxBackup → (s.slot (s.app.maxBackup.toNat - 1)).isSome = true →
      (s.slot s.app.maxBackup.toNat).isSome = true →
      (∀ j, 1 ≤ j → j ≤ s.app.maxBackup.toNat → (s.slot j).isSome = true) ∨
        ∃ j, j ≠ s.app.maxBackup.toNat ∧ s.slot j = s.slot s.app.maxBackup.toNat) := by
  have hmax : 2 ≤ s.app.maxBackup ↔ 1 ≤ s.moved := by unfold moved; omega
  have hlast : 1 ≤ s.moved → s.app.maxBackup.toNat = s.moved + 1 := by unfold moved; omega
  rw [hmax]
  constructor
  · intro hkept hmoved hfull hthere
    rw [hlast hmoved] at hfull hthere ⊢
    obtain ⟨c, hc⟩ := Option.isSome_iff_exists.mp hthere
    rcases hkept (s.moved + 1) c (by omega) hc with ⟨k, hk, hkc⟩ | hall
    · obtain ⟨j, hj, hjc⟩ := source h hroll ok event hmoved hfull hk hkc
      exact Or.inr ⟨j, hj, hjc.trans hc.symm⟩
    · rw [hlast hmoved] at hall
      exact Or.inl hall
  · intro hsafe i c hi hc
    by_cases hmoved : 1 ≤ s.moved
    · by_cases hi' : i = s.moved + 1
      · subst hi'
        by_cases hfull : (s.slot s.moved).isSome = true
        · have hthere : (s.slot (s.moved + 1)).isSome = true := by rw [hc]; rfl
          rw [hlast hmoved] at hsafe ⊢
          rcases hsafe hmoved hfull hthere with hall | ⟨j, hj, hjc⟩
          · exact Or.inr hall
          · exact Or.inl (survives h hroll ok event hmoved hj (hjc.trans hc))
        · -- a gap below the last backup: nothing is renamed over it
          have hgap : s.slot s.moved = none := Option.not_isSome_iff_eq_none.mp hfull
          refine Or.inl ⟨s.moved + 1, hi, ?_⟩
          rw [append_slot h ok event hi, if_pos hroll, if_neg (by omega),
            Files.shifted_last hmoved, hgap, Option.none_or, hc]
      · exact Or.inl (survives h hroll ok event hmoved hi' hc)
    · -- nothing is shifted: the current file replaces backup 1, the only one to be kept
      by_cases hone : i = 1
      · subst hone
        refine Or.inr fun j hj hle => ?_
        obtain rfl : j = 1 := by unfold moved at hmoved; omega
        rw [hc]
        rfl
      · refine Or.inl ⟨i, hi, ?_⟩
        rw [append_slot h ok event hi, if_pos hroll, if_neg hone, Files.shifted_of_gt (by omega),
          hc]

/-- **One call** does to the backups what it should exactly under the condition. -/
theorem keepsBackups_iff (h : s.Canonical env) (ok : Bool) (event : LogEvent) :
    KeepsBackups s (s.append env ok event) ↔ RollsSafely s := by
  by_cases hroll : s.mustRoll = true
  · by_cases hnone : s.slot 0 = none
    · have hempty := untouched_iff h hroll hnone ok event
      constructor
      · intro hkeeps
        refine ⟨fun _ _ i hi hlt => ?_,
          fun _ hsome => absurd hnone (Option.isSome_iff_ne_none.mp hsome)⟩
        exact hempty.mp (hkeeps.untouched hroll hnone) i hi (by unfold moved; omega)
      · intro hsafe
        have hsame := hempty.mpr fun i hi hle =>
          hsafe.missing hroll hnone i hi (by unfold moved at hle; omega)
        refine ⟨fun i c hi hc => Or.inl ⟨i, hi, (hsame i hi).trans hc⟩, fun _ _ => hsame⟩
    · have hcurrent : (s.slot 0).isSome = true := Option.isSome_iff_ne_none.mpr hnone
      have hkept := kept_iff h hroll ok event
      constructor
      · intro hkeeps
        refine ⟨fun _ h0 => absurd h0 hnone, fun _ _ => hkept.mp fun i c hi hc => ?_⟩
        exact (hkeeps.kept i c hi hc).imp_right fun hfull => hfull.2.2
      · intro hsafe
        have hall := hkept.mpr (hsafe.present hroll hcurrent)
        refine ⟨fun i c hi hc => ?_, fun _ h0 => absurd h0 hnone⟩
        exact (hall i c hi hc).imp_right fun hfull => ⟨hroll, hcurrent, hfull⟩
  · have hsame : ∀ i, 1 ≤ i → (s.append env ok event).slot i = s.slot i := by
      intro i hi
      rw [append_slot h ok event hi, if_neg hroll]
    constructor
    · exact fun _ => ⟨fun hmust => absurd hmust hroll, fun hmust => absurd hmust hroll⟩
    · intro _
      exact ⟨fun i c hi hc => Or.inl ⟨i, hi, (hsame i hi).trans hc⟩,
        fun hmust => absurd hmust hroll⟩

/-- **Failed re-opens.** In every run of `Append` calls, with any files to begin with and
any pattern of failed re-opens, all calls do to the backups what they should if and only
if every roll is safe. -/
theorem failed_reopen_iff (env : AppenderEnv) (files : Files Bytes UInt8) (filePath : Bytes)
    (maxSize : Nat) (maxBackup : Int) (calls : List AppendCall) :
    AllSteps (appendStep env) (fun s _ t => KeepsBackups s t)
        (FileAppender.make env files filePath maxSize maxBackup) calls ↔
      AllSteps (appendStep env) (fun s _ _ => RollsSafely s)
        (FileAppender.make env files filePath maxSize maxBackup) calls := by
  have hstep : ∀ s call t, s.Canonical env → appendStep env s call = some t →
      t.Canonical env := by
    intro s call t hs ht
    obtain rfl := Option.some.inj ht
    exact canonical_append hs call.reopens call.event
  have hiff : ∀ s call t, s.Canonical env → appendStep env s call = some t →
      (KeepsBackups s t ↔ RollsSafely s) := by
    intro s call t hs ht
    obtain rfl := Option.some.inj ht
    exact keepsBackups_iff hs call.reopens call.event
  exact allSteps_congr hstep hiff calls _ (canonical_make files filePath maxSize maxBackup)

/-- A current file and one backup. -/
def oneBackup : Files Bytes UInt8 := fun path =>
  if path = ascii "log" then some (ascii "a")
  else if path = ascii "log.1" then some (ascii "b") else none

/-- Two records after a failed re-open cost the backup `b`: the current file becomes backup
1 and then backup 2, where `b` had gone, and there is no current file at the second roll. -/
theorem failed_reopen_costs_backup :
    let env : AppenderEnv := ⟨fun _ => [], id, fun _ => rfl⟩
    let start := FileAppender.make env oneBackup (ascii "log") 1 2
    let calls : List AppendCall := [⟨{}, false⟩, ⟨{}, false⟩]
    ¬ AllSteps (appendStep env) (fun s _ t => KeepsBackups s t) start calls ∧
      (run (appendStep env) start calls).map (fun s => [s.slot 0, s.slot 1, s.slot 2]) =
        some [none, none, some (ascii "a")] := by
  intro env start calls
  constructor
  · intro hall
    have hsecond := ((hall _ rfl).2 _ rfl).1
    have hsame := hsecond.untouched (by decide +kernel) (by decide +kernel) 2 (by decide)
    exact absurd hsame (by decide +kernel)
  · decide +kernel

end AppenderState

end AsioServer.Infra
