/-
AsioServer.Infra.LogRestartTheorems — what is left of a log after any number of lives.

A text gets to the stream unless a full file cannot be rolled: a stream that is closed
belongs to a file that is rolled next (`LogServes.full`), so that what is lost is lost in a
roll (`Accounted`).

The texts that got to it are in chunks, one for each file there has ever been: `cur` is the one
of the current file, if there is a current file, and `older` the others, newest first.
`Chunked` is the invariant of the directory, `LogServes` what a running appender knows of it.
A roll that stops anywhere keeps `Chunked` by the rule of the climb in `Lib.Climb`, with
`cur` in front of `older` once it has got to the end.

`log_survives_restarts` reads the invariant at the end of a run.
-/
import AsioServer.Infra.LogRestart

namespace AsioServer.Infra

open AsioServer.Core AsioServer.Lib

/-! ## A roll is a climb -/

theorem renameIfExists_slot (filePath : Bytes) (files : Files Bytes UInt8) (i : Nat) :
    renameIfExists files (slotPath filePath i, slotPath filePath (i + 1)) =
      files.rename (slotPath filePath i) (slotPath filePath (i + 1)) := by
  unfold renameIfExists
  split
  · rfl
  · next hnone => rw [Files.rename, if_neg hnone]

/-- The renames, cut short after `k` of them. -/
theorem foldl_renames (filePath : Bytes) (n k : Nat) (files : Files Bytes UInt8) :
    ((backupRenames filePath n ++ [(filePath, filePath ++ ascii ".1")]).take k).foldl
      renameIfExists files = files.climb (slotPath filePath) (n + 1) k := by
  have hcurrent : (filePath, filePath ++ ascii ".1") =
      (slotPath filePath 0, slotPath filePath 1) := by rw [slotPath_zero, slotPath_one]
  induction n generalizing k files with
  | zero =>
      cases k with
      | zero => rfl
      | succ k =>
          rw [backupRenames, List.nil_append, List.take_succ_cons, List.take_nil, hcurrent,
            List.foldl_cons, List.foldl_nil, renameIfExists_slot]
          rfl
  | succ n ih =>
      cases k with
      | zero => rfl
      | succ k =>
          have hfirst : (backupPath filePath (n + 1), backupPath filePath (n + 1 + 1)) =
              (slotPath filePath (n + 1), slotPath filePath (n + 1 + 1)) := by
            rw [slotPath_succ, slotPath_succ]
          rw [backupRenames, List.cons_append, List.take_succ_cons, List.foldl_cons, ih, hfirst,
            renameIfExists_slot]
          rfl

namespace AppenderState

variable {env : AppenderEnv} {s : AppenderState}

/-- `RollFile` up to its first `k` renames. -/
theorem files_stopRoll (k : Nat) (s : AppenderState) :
    (s.stopRoll k).files =
      s.files.climb (slotPath s.app.filePath) ((s.app.maxBackup - 1).toNat + 1) k :=
  foldl_renames s.app.filePath _ k s.files

/-- **`RollFile` is all its renames**, and a file that is opened. -/
theorem rollFile_eq_stopRoll (env : AppenderEnv) (ok : Bool) (s : AppenderState) :
    s.rollFile env ok =
      (s.stopRoll ((s.app.maxBackup - 1).toNat + 1)).openFile env ok := by
  have hfiles := files_stopRoll ((s.app.maxBackup - 1).toNat + 1) s
  rw [Files.climb_all] at hfiles
  simp only [rollFile, rename_current, renameBackups_eq_shift, ← hfiles]
  rfl

end AppenderState

/-! ## The chunks -/

/-- A file of the log holds the texts of a chunk, and without the last one of them it was
not full. -/
def LimitedFile (maxFileSize : Nat) (chunk : List Bytes) : Prop :=
  chunk.dropLast.flatten.length < maxFileSize

/-- A file that is not in use any more: it was there before, or it is full. -/
def FullFile (maxFileSize : Nat) (before : List Bytes) (chunk : List Bytes) : Prop :=
  (∃ text ∈ before, chunk = [text]) ∨ maxFileSize ≤ chunk.flatten.length

/-- **The invariant of the directory.** -/
structure Chunked (path : Bytes) (n maxFileSize : Nat) (before written : List Bytes)
    (files : Files Bytes UInt8) (cur : Option (List Bytes)) (older : List (List Bytes)) :
    Prop where
  current : files (slotPath path 0) = cur.map List.flatten
  backups : files.held (fun i => slotPath path (i + 1)) n <+: older.map List.flatten
  kept : older ≠ [] → files.held (fun i => slotPath path (i + 1)) n ≠ []
  full : ∀ chunk ∈ older, FullFile maxFileSize before chunk
  limited : ∀ chunk ∈ cur.toList ++ older, LimitedFile maxFileSize chunk
  texts : older.reverse.flatten ++ cur.getD [] = before ++ written

/-- What a running appender knows of its file. -/
structure LogServes (path : Bytes) (cfg : LogConfig) (files : Files Bytes UInt8)
    (app : FileAppender) : Prop where
  filePath : app.filePath = path
  maxFileSize : app.maxFileSize = cfg.maxFileSize
  maxBackup : app.maxBackup = cfg.maxBackup
  isOpen : app.isOpen = true →
    ∃ text, files (slotPath path 0) = some text ∧ text.length = app.currentSize
  closed : app.isOpen = false →
    ∀ text, files (slotPath path 0) = some text → cfg.maxFileSize ≤ text.length
  full : app.isOpen = false → cfg.maxFileSize ≤ app.currentSize

variable {path : Bytes} {n maxFileSize : Nat} {before written : List Bytes}
  {files : Files Bytes UInt8} {cur : Option (List Bytes)} {older : List (List Bytes)}

namespace Chunked

/-- A roll of a full file, wherever it stops. -/
theorem climb
    (h : Chunked path (n + 1) maxFileSize before written files cur older)
    (hfull : ∀ text, files (slotPath path 0) = some text → maxFileSize ≤ text.length)
    (k : Nat) : ∃ cur' older', Chunked path (n + 1) maxFileSize before written
      (files.climb (slotPath path) (n + 1) k) cur' older' := by
  have hslot := slotPath_injective path
  have hbackup : Function.Injective fun i => slotPath path (i + 1) :=
    fun i j hij => Nat.succ.inj (hslot hij)
  have hzero : files.climb (slotPath path) (n + 1) k (slotPath path 0) =
      if k ≤ n then files (slotPath path 0) else none := Files.climb_slot_zero hslot
  by_cases hk : k ≤ n
  · -- the current file is where it was
    rw [if_pos hk] at hzero
    have hclimb : files.climb (slotPath path) (n + 1) k =
        files.climb (fun i => slotPath path (i + 1)) n k := Files.climb_succ_of_le hk
    refine ⟨cur, older, hzero.trans h.current, ?_, fun hne => ?_, h.full, h.limited, h.texts⟩
    · rw [hclimb]
      exact (Files.held_climb_prefix hbackup n k).trans h.backups
    · rw [hclimb]
      exact Files.held_climb_ne_nil hbackup n k (h.kept hne)
  · rw [if_neg hk] at hzero
    have hheld := Files.held_cons (slotPath path) files (n + 1)
    have hheld' := Files.held_cons (slotPath path)
      (files.climb (slotPath path) (n + 1) k) (n + 1)
    rw [hzero, Option.toList_none, List.nil_append] at hheld'
    have hcur : (files (slotPath path 0)).toList = cur.toList.map List.flatten := by
      rw [h.current]
      cases cur <;> rfl
    refine ⟨none, cur.toList ++ older, hzero, ?_, fun hne => ?_, ?_, ?_, ?_⟩
    · rw [← hheld', List.map_append, ← hcur]
      refine (Files.held_climb_prefix hslot (n + 1) k).trans ?_
      rw [hheld]
      exact (List.prefix_append_right_inj _).mpr h.backups
    · rw [← hheld']
      refine Files.held_climb_ne_nil hslot (n + 1) k ?_
      rw [hheld, hcur]
      cases cur with
      | none => exact h.kept hne
      | some chunk => simp
    · intro chunk hchunk
      rcases List.mem_append.mp hchunk with hmem | hmem
      · obtain rfl := Option.mem_toList.mp hmem
        exact .inr (hfull _ h.current)
      · exact h.full chunk hmem
    · exact h.limited
    · rw [← h.texts]
      cases cur <;> simp

/-- The file that is opened is the current one. -/
theorem openAppend (h : Chunked path n maxFileSize before written files cur older)
    (hsize : 0 < maxFileSize) :
    Chunked path n maxFileSize before written (files.openAppend (slotPath path 0))
      (some (cur.getD [])) older := by
  have hheld := Files.held_openAppend (slotPath_injective path) files n
  refine ⟨?_, hheld ▸ h.backups, fun hne => hheld ▸ h.kept hne, h.full, ?_, h.texts⟩
  · rw [Files.openAppend_slot_zero, h.current]
    cases cur <;> rfl
  · intro chunk hchunk
    rcases List.mem_cons.mp hchunk with rfl | hmem
    · cases cur with
      | none => exact hsize
      | some chunk => exact h.limited chunk (by simp)
    · exact h.limited chunk (List.mem_append_right _ hmem)

/-- One more text in a file that is not full. -/
theorem append {chunk : List Bytes}
    (h : Chunked path n maxFileSize before written files (some chunk) older)
    (hsmall : chunk.flatten.length < maxFileSize) (text : Bytes) :
    Chunked path n maxFileSize before (written ++ [text])
      (files.append (slotPath path 0) text) (some (chunk ++ [text])) older := by
  have hheld := Files.held_append (slotPath_injective path) files text n
  refine ⟨?_, hheld ▸ h.backups, fun hne => hheld ▸ h.kept hne, h.full, ?_, ?_⟩
  · rw [Files.append, Function.update_self, h.current]
    simp
  · intro c hc
    rcases List.mem_cons.mp hc with rfl | hmem
    · rw [LimitedFile, List.dropLast_concat]
      exact hsmall
    · exact h.limited c (List.mem_append_right _ hmem)
  · rw [← List.append_assoc, ← h.texts]
    simp

end Chunked

/-! ## One event -/

/-- The invariant of a running appender with its directory, which was `files₀` at first. -/
structure LogRunning (env : AppenderEnv) (cfg : LogConfig) (files₀ : Files Bytes UInt8)
    (written : List Bytes) (t : AppenderState) : Prop where
  chunked : ∃ cur older, Chunked (env.resolve cfg.filePath) cfg.backups cfg.maxFileSize
    (cfg.logFiles env files₀) written t.files cur older
  serves : LogServes (env.resolve cfg.filePath) cfg t.files t.app
  others : ∀ p, (∀ i ≤ cfg.backups, p ≠ slotPath (env.resolve cfg.filePath) i) →
    t.files p = files₀ p

variable {env : AppenderEnv} {cfg : LogConfig} {files₀ : Files Bytes UInt8} {t : AppenderState}

namespace LogRunning

theorem mustRoll_iff (h : LogRunning env cfg files₀ written t) :
    t.mustRoll = true ↔ cfg.maxFileSize ≤ t.app.currentSize := by
  rw [AppenderState.mustRoll, decide_eq_true_iff, h.serves.maxFileSize]

/-- A file that is rolled is full. -/
theorem full (h : LogRunning env cfg files₀ written t) (hroll : t.mustRoll = true) :
    ∀ text, t.files (slotPath (env.resolve cfg.filePath) 0) = some text →
      cfg.maxFileSize ≤ text.length := by
  intro text htext
  cases hopen : t.app.isOpen with
  | true =>
      obtain ⟨text', htext', hlength⟩ := h.serves.isOpen hopen
      obtain rfl := Option.some.inj (htext.symm.trans htext')
      rw [hlength]
      exact h.mustRoll_iff.mp hroll
  | false => exact h.serves.closed hopen text htext

theorem files_stopRoll (h : LogRunning env cfg files₀ written t) (k : Nat) :
    (t.stopRoll k).files =
      t.files.climb (slotPath (env.resolve cfg.filePath)) cfg.backups k := by
  rw [AppenderState.files_stopRoll, h.serves.filePath, h.serves.maxBackup]
  rfl

/-- **A roll that stops anywhere.** -/
theorem stopRoll (h : LogRunning env cfg files₀ written t) (hroll : t.mustRoll = true) (k : Nat) :
    LogRunning env cfg files₀ written (t.stopRoll k) := by
  have hfiles := h.files_stopRoll k
  obtain ⟨cur, older, hchunked⟩ := h.chunked
  have hzero : (t.stopRoll k).files (slotPath (env.resolve cfg.filePath) 0) =
      if k ≤ (cfg.maxBackup - 1).toNat then t.files (slotPath (env.resolve cfg.filePath) 0)
      else none := by
    rw [hfiles]
    exact Files.climb_slot_zero (slotPath_injective _)
  refine ⟨?_, ⟨h.serves.filePath, h.serves.maxFileSize, h.serves.maxBackup, ?_, ?_,
    fun _ => h.mustRoll_iff.mp hroll⟩, ?_⟩
  · rw [hfiles]
    exact hchunked.climb (h.full hroll) k
  · intro hopen
    exact absurd hopen Bool.false_ne_true
  · intro _ text htext
    rw [hzero] at htext
    split at htext
    · exact h.full hroll text htext
    · exact absurd htext (by simp)
  · intro p hp
    rw [hfiles, Files.climb_other hp, h.others p hp]

/-- The file is opened, by the constructor or in a roll. -/
theorem opened
    (hchunked : ∃ cur older, Chunked (env.resolve cfg.filePath) cfg.backups cfg.maxFileSize
      (cfg.logFiles env files₀) written t.files cur older)
    (hothers : ∀ p, (∀ i ≤ cfg.backups, p ≠ slotPath (env.resolve cfg.filePath) i) →
      t.files p = files₀ p)
    (hpath : env.resolve t.app.filePath = slotPath (env.resolve cfg.filePath) 0)
    (hmaxSize : t.app.maxFileSize = cfg.maxFileSize) (hmaxBackup : t.app.maxBackup = cfg.maxBackup)
    (hsize : 0 < cfg.maxFileSize) :
    LogRunning env cfg files₀ written (t.openFile env true) := by
  obtain ⟨cur, older, hchunked⟩ := hchunked
  have hfiles : (t.openFile env true).files =
      t.files.openAppend (slotPath (env.resolve cfg.filePath) 0) := by rw [← hpath]; rfl
  have hopens : ¬ (t.openFile env true).app.isOpen = false := by simp [AppenderState.openFile]
  refine ⟨⟨_, _, by rw [hfiles]; exact hchunked.openAppend hsize⟩,
    ⟨hpath, hmaxSize, hmaxBackup, fun _ => ?_, fun hopen => absurd hopen hopens,
      fun hopen => absurd hopen hopens⟩, ?_⟩
  · have hopened := Files.openAppend_slot_zero t.files (slotPath (env.resolve cfg.filePath))
    refine ⟨_, by rw [hfiles]; exact hopened, ?_⟩
    show _ = ((t.files.openAppend (env.resolve t.app.filePath)
      (env.resolve t.app.filePath)).getD []).length
    rw [hpath, hopened]
    rfl
  · intro p hp
    rw [hfiles, Files.openAppend, Function.update_of_ne (hp 0 (Nat.zero_le _)), hothers p hp]

/-- A file that was closed for a roll is opened again, or it stays closed. -/
theorem openFile (h : LogRunning env cfg files₀ written t) (hsize : 0 < cfg.maxFileSize)
    (hclosed : t.app.isOpen = false) (ok : Bool) :
    LogRunning env cfg files₀ written (t.openFile env ok) := by
  cases ok with
  | false =>
      exact ⟨h.chunked, ⟨h.serves.filePath, h.serves.maxFileSize, h.serves.maxBackup,
        fun hopen => absurd hopen Bool.false_ne_true, fun _ => h.serves.closed hclosed,
        fun _ => h.serves.full hclosed⟩, h.others⟩
  | true =>
      have hpath : env.resolve t.app.filePath = slotPath (env.resolve cfg.filePath) 0 := by
        rw [h.serves.filePath, env.resolve_resolve, slotPath_zero]
      exact opened h.chunked h.others hpath h.serves.maxFileSize h.serves.maxBackup hsize

/-- **A roll, if the file is full.** The file that is written to is not full afterwards. -/
theorem rollIfFull (h : LogRunning env cfg files₀ written t) (hsize : 0 < cfg.maxFileSize)
    (ok : Bool) : LogRunning env cfg files₀ written (t.rollIfFull env ok) ∧
      ((t.rollIfFull env ok).app.isOpen = true →
        (t.rollIfFull env ok).app.currentSize < cfg.maxFileSize) := by
  unfold AppenderState.rollIfFull
  split
  · next hroll =>
    have hstopped := h.stopRoll hroll ((t.app.maxBackup - 1).toNat + 1)
    have hrolled : LogRunning env cfg files₀ written (t.rollFile env ok) := by
      rw [AppenderState.rollFile_eq_stopRoll]
      exact hstopped.openFile hsize rfl ok
    refine ⟨hrolled, fun hopen => ?_⟩
    obtain ⟨text, htext, hlength⟩ := hrolled.serves.isOpen hopen
    -- the file is new
    have hnone : (t.stopRoll ((t.app.maxBackup - 1).toNat + 1)).files
        (slotPath (env.resolve cfg.filePath) 0) = none := by
      rw [h.files_stopRoll, h.serves.maxBackup]
      exact (Files.climb_slot_zero (slotPath_injective _)).trans (if_neg (by omega))
    have hnew : ∀ text, (t.rollFile env ok).files (slotPath (env.resolve cfg.filePath) 0) =
        some text → text = [] := by
      intro text htext
      rw [AppenderState.rollFile_eq_stopRoll] at htext
      cases ok with
      | false => exact absurd (hnone.symm.trans htext) (by simp)
      | true =>
          have hpath : env.resolve (t.stopRoll ((t.app.maxBackup - 1).toNat + 1)).app.filePath =
              slotPath (env.resolve cfg.filePath) 0 := by
            rw [hstopped.serves.filePath, env.resolve_resolve, slotPath_zero]
          simp only [AppenderState.openFile, if_true, hpath] at htext
          rw [Files.openAppend_slot_zero, hnone] at htext
          exact (Option.some.inj htext).symm
    rw [← hlength, hnew text htext]
    exact hsize
  · next hroll =>
    exact ⟨h, fun _ => Nat.lt_of_not_le fun hle => hroll (h.mustRoll_iff.mpr hle)⟩

/-- The stream is open for a text unless a full file could not be opened again. -/
theorem isOpen_rollIfFull (h : LogRunning env cfg files₀ written t) (ok : Bool) :
    (t.rollIfFull env ok).app.isOpen = (!t.mustRoll || ok) := by
  unfold AppenderState.rollIfFull
  split
  · next hroll =>
    rw [AppenderState.rollFile_eq_stopRoll, hroll]
    cases ok <;> rfl
  · next hroll =>
    rw [Bool.eq_false_iff.mpr hroll, Bool.not_false, Bool.true_or]
    by_contra hclosed
    exact hroll (h.mustRoll_iff.mpr (h.serves.full (Bool.eq_false_iff.mpr hclosed)))

/-- **A text is written** to a file that is not full. -/
theorem writeRecord (h : LogRunning env cfg files₀ written t)
    (hsmall : t.app.isOpen = true → t.app.currentSize < cfg.maxFileSize) (text : Bytes) :
    LogRunning env cfg files₀ (written ++ (t.app.given text).toList) (t.writeRecord text) := by
  cases hopen : t.app.isOpen with
  | false =>
      have hgiven : t.app.given text = none := by simp [FileAppender.given, hopen]
      have hfiles : (t.writeRecord text).files = t.files := by
        simp [AppenderState.writeRecord, hopen]
      rw [hgiven, Option.toList_none, List.append_nil]
      refine ⟨by rw [hfiles]; exact h.chunked, ⟨h.serves.filePath, h.serves.maxFileSize,
        h.serves.maxBackup, fun hopen' => ?_, fun _ => ?_, fun _ => ?_⟩,
        by rw [hfiles]; exact h.others⟩
      · exact absurd (hopen.symm.trans hopen') Bool.false_ne_true
      · rw [hfiles]
        exact h.serves.closed hopen
      · exact (h.serves.full hopen).trans (Nat.le_add_right _ _)
  | true =>
      obtain ⟨cur, older, hchunked⟩ := h.chunked
      obtain ⟨content, hcontent, hlength⟩ := h.serves.isOpen hopen
      have hgiven : t.app.given text = some text := by simp [FileAppender.given, hopen]
      have hfiles : (t.writeRecord text).files =
          t.files.append (slotPath (env.resolve cfg.filePath) 0) text := by
        rw [slotPath_zero, ← h.serves.filePath]
        simp [AppenderState.writeRecord, hopen]
      have hopens : ¬ (t.writeRecord text).app.isOpen = false :=
        fun hclosed => Bool.false_ne_true.symm (hopen.symm.trans hclosed)
      have hcurrent := hchunked.current
      rw [hcontent] at hcurrent
      cases cur with
      | none => exact absurd hcurrent (by simp)
      | some chunk =>
          obtain rfl := Option.some.inj hcurrent
          have hwritten := hchunked.append (hlength ▸ hsmall hopen) text
          refine ⟨⟨_, _, by rw [hfiles, hgiven]; exact hwritten⟩, ⟨h.serves.filePath,
            h.serves.maxFileSize, h.serves.maxBackup, fun _ => ?_,
            fun hclosed => absurd hclosed hopens, fun hclosed => absurd hclosed hopens⟩, ?_⟩
          · refine ⟨chunk.flatten ++ text, ?_, ?_⟩
            · rw [hfiles, Files.append, Function.update_self, hcontent, Option.map_some]
            · rw [List.length_append, hlength]
              rfl
          · intro p hp
            rw [hfiles, Files.append, Function.update_of_ne (hp 0 (Nat.zero_le _)), h.others p hp]

end LogRunning

/-! ## Any number of lives -/

/-- The events, one constructor for each; a running process has the appender `app`. -/
inductive LogDiskEffect (env : AppenderEnv) (cfg : LogConfig) (s : LogDisk) :
    LogDiskEvent → LogDisk → Prop where
  | start {t : AppenderState} :
      t = FileAppender.make env s.files cfg.filePath cfg.maxFileSize cfg.maxBackup →
        LogDiskEffect env cfg s .start { s with files := t.files, app := some t.app }
  | append {app : FileAppender} {t : AppenderState} {call : AppendCall} {text : Bytes} :
      s.app = some app → t = (⟨s.files, app⟩ : AppenderState).rollIfFull env call.reopens →
        text = env.format call.event →
          LogDiskEffect env cfg s (.append call)
            { files := (t.writeRecord text).files, app := some (t.writeRecord text).app
              appended := s.appended ++ [⟨text, t.app.given text⟩] }
  | renameThrows {app : FileAppender} {t : AppenderState} {event : LogEvent} {k : Nat} :
      s.app = some app → t = ⟨s.files, app⟩ → t.mustRoll = true →
        LogDiskEffect env cfg s (.renameThrows event k)
          { files := (t.stopRoll k).files, app := some (t.stopRoll k).app
            appended := s.appended ++ [⟨env.format event, none⟩] }
  | kill {app : FileAppender} : s.app = some app →
      LogDiskEffect env cfg s .kill { s with app := none }
  | killInRoll {app : FileAppender} {t : AppenderState} {event : LogEvent} {k : Nat} :
      s.app = some app → t = ⟨s.files, app⟩ → t.mustRoll = true →
        LogDiskEffect env cfg s (.killInRoll event k)
          { files := (t.stopRoll k).files, app := none
            appended := s.appended ++ [⟨env.format event, none⟩] }
  | killInWrite {app : FileAppender} {t : AppenderState} {call : AppendCall} {n : Nat}
      {text : Bytes} :
      s.app = some app → t = (⟨s.files, app⟩ : AppenderState).rollIfFull env call.reopens →
        text = env.format call.event →
          LogDiskEffect env cfg s (.killInWrite call n)
            { files := (t.writeRecord (text.take n)).files, app := none
              appended := s.appended ++ [⟨text, t.app.given (text.take n)⟩] }

theorem effect_of_logDiskStep {s s' : LogDisk} {e : LogDiskEvent}
    (h : logDiskStep env cfg s e = some s') : LogDiskEffect env cfg s e s' := by
  cases e with
  | start =>
      simp only [logDiskStep] at h
      split at h
      · obtain rfl := Option.some.inj h
        exact .start rfl
      · exact absurd h (by simp)
  | append call =>
      obtain ⟨app, happ, rfl⟩ := Option.map_eq_some_iff.mp h
      exact .append happ rfl rfl
  | renameThrows event k =>
      obtain ⟨app, happ, h⟩ := Option.bind_eq_some_iff.mp h
      dsimp only at h
      split at h
      · next hroll =>
        obtain rfl := Option.some.inj h
        exact .renameThrows happ rfl hroll.1
      · exact absurd h (by simp)
  | kill =>
      obtain ⟨app, happ, rfl⟩ := Option.map_eq_some_iff.mp h
      exact .kill happ
  | killInRoll event k =>
      obtain ⟨app, happ, h⟩ := Option.bind_eq_some_iff.mp h
      dsimp only at h
      split at h
      · next hroll =>
        obtain rfl := Option.some.inj h
        exact .killInRoll happ rfl hroll
      · exact absurd h (by simp)
  | killInWrite call n =>
      obtain ⟨app, happ, rfl⟩ := Option.map_eq_some_iff.mp h
      exact .killInWrite happ rfl rfl

/-- **The invariant of a run.** -/
structure LogDiskInv (env : AppenderEnv) (cfg : LogConfig) (files₀ : Files Bytes UInt8)
    (s : LogDisk) : Prop where
  chunked : ∃ cur older, Chunked (env.resolve cfg.filePath) cfg.backups cfg.maxFileSize
    (cfg.logFiles env files₀) s.written s.files cur older
  serves : ∀ app, s.app = some app → LogServes (env.resolve cfg.filePath) cfg s.files app
  others : ∀ p, (∀ i ≤ cfg.backups, p ≠ slotPath (env.resolve cfg.filePath) i) →
    s.files p = files₀ p

/-- **What becomes of a text.** The stream is given all of it, or what is written of it when the
process is killed; it is lost where a full file is rolled and the roll fails, nowhere else. -/
def Accounted (env : AppenderEnv) (s : LogDisk) (e : LogDiskEvent) (t : LogDisk) : Prop :=
  match e with
  | .start | .kill => t.appended = s.appended
  | .append call =>
      t.appended = s.appended ++ [⟨env.format call.event,
        if s.full = true ∧ call.reopens = false then none else some (env.format call.event)⟩]
  | .renameThrows event _ | .killInRoll event _ =>
      s.full = true ∧ t.appended = s.appended ++ [⟨env.format event, none⟩]
  | .killInWrite call n =>
      t.appended = s.appended ++ [⟨env.format call.event,
        if s.full = true ∧ call.reopens = false then none
        else some ((env.format call.event).take n)⟩]

namespace LogDiskInv

variable {s s' : LogDisk} {e : LogDiskEvent}

theorem running (h : LogDiskInv env cfg files₀ s) {app : FileAppender} (happ : s.app = some app) :
    LogRunning env cfg files₀ s.written ⟨s.files, app⟩ :=
  ⟨h.chunked, h.serves app happ, h.others⟩

variable {appended : List LogText}

theorem of_running (h : LogRunning env cfg files₀ (appended.filterMap LogText.given) t) :
    LogDiskInv env cfg files₀ { files := t.files, app := some t.app, appended } :=
  ⟨h.chunked, fun _ happ => Option.some.inj happ ▸ h.serves, h.others⟩

/-- What is killed leaves its files. -/
theorem of_killed (h : LogRunning env cfg files₀ (appended.filterMap LogText.given) t) :
    LogDiskInv env cfg files₀ { files := t.files, app := none, appended } :=
  ⟨h.chunked, fun _ happ => absurd happ (by simp), h.others⟩

theorem given_concat (text : LogText) :
    (appended ++ [text]).filterMap LogText.given =
      appended.filterMap LogText.given ++ text.given.toList := by
  rw [List.filterMap_append]
  cases hgiven : text.given <;> simp [hgiven]

theorem given_concat_lost (text : Bytes) :
    (appended ++ [LogText.mk text none]).filterMap LogText.given =
      appended.filterMap LogText.given := by
  rw [given_concat (LogText.mk text none), Option.toList_none, List.append_nil]

/-- The files that were there before are chunks of one text each. -/
theorem start (env : AppenderEnv) (cfg : LogConfig) (files₀ : Files Bytes UInt8)
    (hsize : 0 < cfg.maxFileSize) : LogDiskInv env cfg files₀ { files := files₀ } := by
  let path := env.resolve cfg.filePath
  let backups := files₀.held (fun i => slotPath path (i + 1)) cfg.backups
  have hsingle : ∀ texts : List Bytes, (texts.map fun text => [text]).map List.flatten = texts := by
    intro texts
    rw [List.map_map]
    exact (List.map_congr_left fun text _ => List.append_nil text).trans (List.map_id _)
  have hbefore : cfg.logFiles env files₀ =
      backups.reverse ++ (files₀ (slotPath path 0)).toList := by
    rw [LogConfig.logFiles, Files.held_cons, List.reverse_append]
    congr 1
    cases files₀ (slotPath (env.resolve cfg.filePath) 0) <;> rfl
  refine ⟨⟨(files₀ (slotPath path 0)).map fun text => [text], backups.map fun text => [text],
    ?_, ?_, ?_, ?_, ?_, ?_⟩, nofun, fun _ _ => rfl⟩
  · cases h : files₀ (slotPath path 0) <;> simp [path] at h <;> simp [h]
  · rw [hsingle]
  · intro hne hnil
    exact hne (by rw [show backups = [] from hnil]; rfl)
  · intro chunk hchunk
    obtain ⟨text, htext, rfl⟩ := List.mem_map.mp hchunk
    exact .inl ⟨text, by rw [hbefore]; simp [htext], rfl⟩
  · intro chunk hchunk
    have hone : ∃ text, chunk = [text] := by
      rcases List.mem_append.mp hchunk with hmem | hmem
      · obtain ⟨text, -, rfl⟩ := Option.map_eq_some_iff.mp (Option.mem_toList.mp hmem)
        exact ⟨text, rfl⟩
      · obtain ⟨text, -, rfl⟩ := List.mem_map.mp hmem
        exact ⟨text, rfl⟩
    obtain ⟨text, rfl⟩ := hone
    exact hsize
  · rw [hbefore, show ({ files := files₀ } : LogDisk).written = [] from rfl, List.append_nil]
    congr 1
    · rw [← List.map_reverse, ← List.flatMap_def, List.flatMap_singleton']
    · cases files₀ (slotPath path 0) <;> rfl

/-- **One event.** -/
theorem step (hsize : 0 < cfg.maxFileSize) (h : LogDiskInv env cfg files₀ s)
    (hs : logDiskStep env cfg s e = some s') : LogDiskInv env cfg files₀ s' := by
  cases effect_of_logDiskStep hs with
  | start ht =>
      subst ht
      exact of_running (LogRunning.opened h.chunked h.others rfl rfl rfl hsize)
  | @append app t call text happ ht =>
      subst ht
      obtain ⟨hrolled, hsmall⟩ := (h.running happ).rollIfFull hsize call.reopens
      refine of_running ?_
      rw [given_concat]
      exact hrolled.writeRecord hsmall text
  | @renameThrows app t event k happ ht hroll =>
      subst ht
      refine of_running ?_
      rw [given_concat_lost]
      exact (h.running happ).stopRoll hroll k
  | kill happ => exact of_killed (h.running happ)
  | @killInRoll app t event k happ ht hroll =>
      subst ht
      refine of_killed ?_
      rw [given_concat_lost]
      exact (h.running happ).stopRoll hroll k
  | @killInWrite app t call n text happ ht =>
      subst ht
      obtain ⟨hrolled, hsmall⟩ := (h.running happ).rollIfFull hsize call.reopens
      refine of_killed ?_
      rw [given_concat]
      exact hrolled.writeRecord hsmall (text.take n)

theorem full_eq {app : FileAppender} (happ : s.app = some app) :
    s.full = (⟨s.files, app⟩ : AppenderState).mustRoll := by
  rw [LogDisk.full, happ, Option.any_some]

/-- What the stream is given of a text: it is lost if a full file is not opened again. -/
theorem given_rollIfFull (h : LogDiskInv env cfg files₀ s) {app : FileAppender}
    (happ : s.app = some app) (ok : Bool) (text : Bytes) :
    ((⟨s.files, app⟩ : AppenderState).rollIfFull env ok).app.given text =
      if s.full = true ∧ ok = false then none else some text := by
  have hopen := (h.running happ).isOpen_rollIfFull ok
  rw [FileAppender.given, hopen, full_eq happ]
  cases (⟨s.files, app⟩ : AppenderState).mustRoll <;> cases ok <;> rfl

theorem accounted (h : LogDiskInv env cfg files₀ s) (hs : logDiskStep env cfg s e = some s') :
    Accounted env s e s' := by
  cases effect_of_logDiskStep hs with
  | start | kill => rfl
  | @append app t call text happ ht htext =>
      subst ht htext
      rw [h.given_rollIfFull happ]
      rfl
  | renameThrows happ ht hroll | killInRoll happ ht hroll =>
      subst ht
      exact ⟨(full_eq happ).trans hroll, rfl⟩
  | @killInWrite app t call n text happ ht htext =>
      subst ht htext
      rw [h.given_rollIfFull happ]
      rfl

theorem run {events : List LogDiskEvent} (hsize : 0 < cfg.maxFileSize)
    (hrun : Lib.run (logDiskStep env cfg) { files := files₀ } events = some s) :
    LogDiskInv env cfg files₀ s :=
  (AllStates.of_invariant (fun _ _ _ h hs => h.step hsize hs) events _
    (start env cfg files₀ hsize)).last hrun

end LogDiskInv

/-! ## What is left -/

/-- The files of a log, from the highest number down, when `written` has been written to a
log with the files `before`; a chunk is the texts of one file. -/
structure LogKept (maxFileSize : Nat) (before written files : List Bytes)
    (chunks : List (List Bytes)) : Prop where
  /-- No text is divided between two files. -/
  files : files = chunks.map List.flatten
  /-- The texts are the newest ones, in the order in which they were written. -/
  newest : ∃ k, chunks.flatten = (before ++ written).drop k
  /-- The text that was written last is one of them. -/
  last : written ≠ [] → chunks.flatten ≠ []
  limited : ∀ chunk ∈ chunks, LimitedFile maxFileSize chunk
  full : ∀ chunk ∈ chunks.dropLast, FullFile maxFileSize before chunk

/-- A list without its head part, when it is reversed and flattened. -/
theorem flatten_reverse_take {chunks : List (List Bytes)} (n : Nat) :
    ∃ k, (chunks.take n).reverse.flatten = chunks.reverse.flatten.drop k := by
  refine ⟨(chunks.drop n).reverse.flatten.length, ?_⟩
  have hsplit : chunks.reverse.flatten =
      (chunks.drop n).reverse.flatten ++ (chunks.take n).reverse.flatten := by
    rw [← List.flatten_append, ← List.reverse_append, List.take_append_drop]
  rw [hsplit, List.drop_left]

theorem FullFile.ne_nil {chunk : List Bytes} (hsize : 0 < maxFileSize)
    (h : FullFile maxFileSize before chunk) : chunk ≠ [] := by
  rintro rfl
  rcases h with ⟨text, -, htext⟩ | hfull
  · exact absurd htext (by simp)
  · exact absurd hsize (Nat.not_lt.mpr hfull)

/-- The chunks of a directory, read from the oldest file. -/
theorem Chunked.logKept (h : Chunked path n maxFileSize before written files cur older)
    (hsize : 0 < maxFileSize) : ∃ chunks, LogKept maxFileSize before written
      (files.held (slotPath path) (n + 1)).reverse chunks := by
  have hheld := Files.held_cons (slotPath path) files n
  have hcur : (files (slotPath path 0)).toList = cur.toList.map List.flatten := by
    rw [h.current]
    cases cur <;> rfl
  generalize hbackups : files.held (fun i => slotPath path (i + 1)) n = backups at hheld
  have hprefix := hbackups ▸ h.backups
  have htake : backups = (older.take backups.length).map List.flatten := by
    rw [List.map_take]
    exact List.prefix_iff_eq_take.mp hprefix
  obtain ⟨k, hk⟩ := @flatten_reverse_take (cur.toList ++ older) (cur.toList.length + backups.length)
  have hchunks : (cur.toList ++ older).take (cur.toList.length + backups.length) =
      cur.toList ++ older.take backups.length := by rw [List.take_length_add_append]
  have hall : (cur.toList ++ older).reverse.flatten = before ++ written := by
    rw [← h.texts]
    cases cur <;> simp
  rw [hchunks, hall] at hk
  refine ⟨(cur.toList ++ older.take backups.length).reverse, ?_, ⟨k, hk⟩, fun hne hnil => ?_, ?_,
    ?_⟩
  · rw [hheld, hcur, List.map_reverse, List.map_append, ← htake]
  · -- the newest chunk with a text in it is one of those that are left
    have holder : older = [] := by
      by_contra holder
      have hsome := h.kept holder
      rw [hbackups] at hsome
      obtain ⟨chunk, rest, rfl⟩ := List.exists_cons_of_ne_nil holder
      obtain ⟨text, texts, rfl⟩ := List.exists_cons_of_ne_nil hsome
      have hmem : chunk ∈ (cur.toList ++
          (chunk :: rest).take (text :: texts).length).reverse := by simp
      have hempty := List.flatten_eq_nil_iff.mp hnil chunk hmem
      exact (h.full chunk (by simp)).ne_nil hsize hempty
    subst holder
    have htexts := h.texts
    rw [List.take_nil, List.append_nil] at hnil
    have hnone : cur.getD [] = [] := by
      cases cur with
      | none => rfl
      | some chunk => simpa using hnil
    rw [hnone] at htexts
    exact hne (List.append_eq_nil_iff.mp htexts.symm).2
  · intro chunk hchunk
    refine h.limited chunk ?_
    rcases List.mem_append.mp (List.mem_reverse.mp hchunk) with hmem | hmem
    · exact List.mem_append_left _ hmem
    · exact List.mem_append_right _ (List.mem_of_mem_take hmem)
  · intro chunk hchunk
    cases cur with
    | none =>
        have hmem := List.mem_reverse.mp (List.mem_of_mem_dropLast hchunk)
        exact h.full chunk (List.mem_of_mem_take hmem)
    | some head =>
        rw [Option.toList_some, List.singleton_append, List.reverse_cons,
          List.dropLast_concat] at hchunk
        exact h.full chunk (List.mem_of_mem_take (List.mem_reverse.mp hchunk))

/-- **The log survives its processes.** However often the process is killed and started
again, in the middle of a roll or of a text, and whatever renames and re-opens fail, the
files hold the newest of the texts that a stream was given, whole and in order, a text that
no stream was given is one of a roll that failed, and no other file has been touched. -/
theorem log_survives_restarts {events : List LogDiskEvent} {s : LogDisk}
    (hsize : 0 < cfg.maxFileSize)
    (hrun : run (logDiskStep env cfg) { files := files₀ } events = some s) :
    (∃ chunks, LogKept cfg.maxFileSize (cfg.logFiles env files₀) s.written
      (cfg.logFiles env s.files) chunks) ∧
    AllSteps (logDiskStep env cfg) (Accounted env) { files := files₀ } events ∧
    ∀ p, (∀ i ≤ cfg.backups, p ≠ slotPath (env.resolve cfg.filePath) i) →
      s.files p = files₀ p := by
  have hstart := LogDiskInv.start env cfg files₀ hsize
  have hinv := LogDiskInv.run hsize hrun
  obtain ⟨cur, older, hchunked⟩ := hinv.chunked
  refine ⟨hchunked.logKept hsize, ?_, hinv.others⟩
  exact AllSteps.of_invariant (fun _ _ _ h hs => ⟨h.step hsize hs, h.accounted hs⟩) events _ hstart

/-- A layout that writes the message alone. -/
def plainEnv : AppenderEnv where
  format := LogEvent.msg
  resolve := id
  resolve_resolve := fun _ => rfl

/-- Three files in all, of two bytes each before the last text. -/
def plainLog : LogConfig := ⟨ascii "log", 2, 2⟩

/-- The first process cannot open the file again for its second text, and is killed after one
of two renames; the second one is killed in a text. -/
theorem log_survives_restarts_two_kills : ∃ (s : LogDisk) (chunks : List (List Bytes)),
    plainLog.logFiles plainEnv s.files = [ascii "aaa", ascii "bbb", ascii "c"] ∧
    LogKept 2 [] [ascii "aaa", ascii "bbb", ascii "c"] (plainLog.logFiles plainEnv s.files)
      chunks ∧
    s.appended = [⟨ascii "aaa", some (ascii "aaa")⟩, ⟨ascii "lost", none⟩,
      ⟨ascii "bbb", some (ascii "bbb")⟩, ⟨ascii "lost", none⟩, ⟨ascii "cc", some (ascii "c")⟩] := by
  let events : List LogDiskEvent :=
    [.start, .append ⟨{ msg := ascii "aaa" }, true⟩, .append ⟨{ msg := ascii "lost" }, false⟩,
      .append ⟨{ msg := ascii "bbb" }, true⟩, .killInRoll { msg := ascii "lost" } 1,
      .start, .killInWrite ⟨{ msg := ascii "cc" }, true⟩ 1]
  obtain ⟨s, hrun, happended, hfiles⟩ : ∃ s,
      run (logDiskStep plainEnv plainLog) { files := fun _ => none } events = some s ∧
        s.appended = [⟨ascii "aaa", some (ascii "aaa")⟩, ⟨ascii "lost", none⟩,
          ⟨ascii "bbb", some (ascii "bbb")⟩, ⟨ascii "lost", none⟩,
          ⟨ascii "cc", some (ascii "c")⟩] ∧
        plainLog.logFiles plainEnv s.files = [ascii "aaa", ascii "bbb", ascii "c"] :=
    ⟨_, rfl, by decide, by decide⟩
  have hwritten : s.written = [ascii "aaa", ascii "bbb", ascii "c"] := by
    rw [LogDisk.written, happended]
    rfl
  obtain ⟨⟨chunks, hkept⟩, -, -⟩ := log_survives_restarts (by decide) hrun
  exact ⟨s, chunks, hfiles, hwritten ▸ hkept, happended⟩

end AsioServer.Infra
