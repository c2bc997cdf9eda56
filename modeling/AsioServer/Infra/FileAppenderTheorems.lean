/-
AsioServer.Infra.FileAppenderTheorems — rotation keeps a contiguous tail.

The history of the log is a list of segments, one for each file that the
appender has written, the current one first. `Segments` is the invariant: slot
`i` holds segment `i`, as long as there are so many backups, and everything
ever appended is in the segments, in order. A roll puts an empty segment in
front (`Segments.roll`, on the rotation rule of `Lib.Files`) and a write extends
the first one (`Segments.write`).

`rotation_keeps_tail` reads off the invariant what is in the files after any
sequence of records.
-/
import AsioServer.Infra.FileAppender
import AsioServer.Infra.JsonTheorems

namespace AsioServer.Infra

open AsioServer.Core AsioServer.Lib

/-! ## The paths of the files -/

theorem slotPath_injective (filePath : Bytes) : Function.Injective (slotPath filePath) := by
  have hbackup : ∀ i, backupPath filePath i ≠ filePath := by
    intro i heq
    have hlen := congrArg List.length heq
    have hdot : (ascii ".").length = 1 := rfl
    simp only [backupPath, List.length_append, hdot] at hlen
    omega
  intro i j h
  unfold slotPath at h
  split at h
  · next hi =>
    split at h
    · next hj => exact hi.trans hj.symm
    · exact absurd h.symm (hbackup j)
  · split at h
    · exact absurd h (hbackup i)
    · have htext := List.append_cancel_left h
      exact Int.ofNat.inj (integerText_injective htext)

theorem slotPath_one (filePath : Bytes) : slotPath filePath 1 = filePath ++ ascii ".1" := by
  have htext : ascii "." ++ integerText (1 : Nat) = ascii ".1" := by decide
  rw [slotPath, if_neg (by decide), backupPath, List.append_assoc, htext]

theorem slotPath_zero (filePath : Bytes) : slotPath filePath 0 = filePath := rfl

theorem slotPath_succ (filePath : Bytes) (i : Nat) :
    slotPath filePath (i + 1) = backupPath filePath (i + 1) := if_neg (by omega)

namespace AppenderState

variable {env : AppenderEnv} {s : AppenderState}

/-- The loop of `RollFile` shifts the backups. -/
theorem renameBackups_eq_shift (filePath : Bytes) (n : Nat) (files : Files Bytes UInt8) :
    renameBackups filePath n files = files.shift (slotPath filePath) n := by
  induction n generalizing files with
  | zero => rfl
  | succ n ih =>
      rw [renameBackups, Files.shift, slotPath_succ, slotPath_succ]
      simp only [ih]
      congr 1
      split
      · rfl
      · next hnone => rw [Files.rename, if_neg hnone]

/-- The rename of the current file, which is skipped when there is none. -/
theorem rename_current (filePath : Bytes) (files : Files Bytes UInt8) :
    (if (files filePath).isSome then files.rename filePath (filePath ++ ascii ".1") else files) =
      files.rename (slotPath filePath 0) (slotPath filePath 1) := by
  rw [slotPath_one, slotPath_zero]
  split
  · rfl
  · next hnone => rw [Files.rename, if_neg hnone]

/-- **`RollFile` is a rotation** of the slots, followed by a new file. -/
theorem rollFile_eq (hpath : env.resolve s.app.filePath = s.app.filePath) :
    s.rollFile env true =
      { files := s.files.rotate (slotPath s.app.filePath) (s.app.maxBackup - 1).toNat
        app := { s.app with
          currentSize := ((s.files.rotate (slotPath s.app.filePath)
            (s.app.maxBackup - 1).toNat s.app.filePath).getD []).length
          isOpen := true } } := by
  simp only [rollFile, openFile, if_true, renameBackups_eq_shift, rename_current, hpath,
    Files.rotate, slotPath_zero]

end AppenderState

/-! ## The history -/

/-- The history of one file: what it held when the appender came to it, and the
records that the appender wrote. -/
structure Segment where
  base : Bytes := []
  records : List Bytes := []

namespace Segment

def content (seg : Segment) : Bytes := seg.base ++ seg.records.flatten

/-- The content without the last record. -/
def beforeLast (seg : Segment) : Bytes := seg.base ++ seg.records.dropLast.flatten

/-- One more record. -/
def add (seg : Segment) (text : Bytes) : Segment := { seg with records := seg.records ++ [text] }

@[simp] theorem content_add (seg : Segment) (text : Bytes) :
    (seg.add text).content = seg.content ++ text := by
  simp [content, add]

@[simp] theorem beforeLast_add (seg : Segment) (text : Bytes) :
    (seg.add text).beforeLast = seg.content := by
  simp [content, beforeLast, add]

end Segment

/-- A file is rolled when it is full, and no earlier: without its last record it
was not. -/
def RolledInTime (maxSize : Nat) (seg : Segment) : Prop :=
  seg.records ≠ [] → maxSize ≤ seg.content.length ∧ seg.beforeLast.length < maxSize

/-- **The invariant**: the files are the newest segments of the history `cur :: older`. -/
structure Segments (env : AppenderEnv) (init : Bytes) (records : List Bytes) (s : AppenderState)
    (cur : Segment) (older : List Segment) : Prop where
  canonical : env.resolve s.app.filePath = s.app.filePath
  isOpen : s.app.isOpen = true
  maxFileSize : 0 < s.app.maxFileSize
  maxBackup : 1 ≤ s.app.maxBackup
  currentSize : s.app.currentSize = cur.content.length
  slots : ∀ i, s.slot i =
    if i ≤ s.app.maxBackup.toNat then ((cur :: older).map Segment.content)[i]? else none
  bases : (cur :: older).reverse.map Segment.base = init :: List.replicate older.length []
  records : (cur :: older).reverse.flatMap Segment.records = records
  rolled : ∀ seg ∈ older, RolledInTime s.app.maxFileSize seg
  current : cur.records ≠ [] → cur.beforeLast.length < s.app.maxFileSize

variable {env : AppenderEnv} {s : AppenderState} {init : Bytes} {records : List Bytes}
  {cur : Segment} {older : List Segment}

/-- A roll begins a new segment. -/
theorem Segments.roll (h : Segments env init records s cur older) (hroll : s.mustRoll = true) :
    Segments env init records (s.rollFile env true) {} (cur :: older) := by
  have hmax : s.app.maxFileSize ≤ cur.content.length := by
    rw [← h.currentSize]
    exact of_decide_eq_true hroll
  have hbackup : (s.app.maxBackup - 1).toNat + 1 = s.app.maxBackup.toNat := by
    have hpos := h.maxBackup
    omega
  have hslots := h.slots
  rw [← hbackup] at hslots
  have hrotate := Files.rotate_slot (slotPath_injective s.app.filePath)
    (s.app.maxBackup - 1).toNat (by simp) hslots
  rw [AppenderState.rollFile_eq h.canonical]
  refine ⟨h.canonical, rfl, h.maxFileSize, h.maxBackup, ?_, ?_, ?_, ?_, ?_, ?_⟩
  · have hzero := hrotate 0
    rw [slotPath_zero, if_pos (by omega)] at hzero
    rw [hzero]
    rfl
  · intro i
    rw [hbackup] at hrotate
    exact hrotate i
  · have hbases := h.bases
    rw [List.reverse_cons, List.map_append, hbases, List.length_cons, List.replicate_succ']
    rfl
  · rw [List.reverse_cons, List.flatMap_append, h.records]
    simp
  · intro seg hseg
    rcases List.mem_cons.mp hseg with rfl | hseg
    · exact fun hne => ⟨hmax, h.current hne⟩
    · exact h.rolled seg hseg
  · intro hne
    exact absurd rfl hne

/-- A write extends the current segment. -/
theorem Segments.writeRecord (h : Segments env init records s cur older)
    (hsmall : s.app.currentSize < s.app.maxFileSize) (text : Bytes) :
    Segments env init (records ++ [text]) (s.writeRecord text) (cur.add text) older := by
  have hfiles : (s.writeRecord text).files = s.files.append s.app.filePath text :=
    if_pos h.isOpen
  refine ⟨h.canonical, h.isOpen, h.maxFileSize, h.maxBackup, ?_, ?_, ?_, ?_, h.rolled, ?_⟩
  · rw [Segment.content_add, List.length_append, ← h.currentSize]
    rfl
  · intro i
    have hi : s.files (slotPath s.app.filePath i) = _ := h.slots i
    show (s.writeRecord text).files (slotPath s.app.filePath i) = _
    rw [hfiles, Files.append]
    by_cases hzero : i = 0
    · subst hzero
      rw [slotPath_zero] at hi ⊢
      rw [Function.update_self, hi]
      simp
    · have hne : slotPath s.app.filePath i ≠ s.app.filePath := fun heq =>
        hzero (slotPath_injective s.app.filePath heq)
      obtain ⟨k, rfl⟩ := Nat.exists_eq_succ_of_ne_zero hzero
      rw [Function.update_of_ne hne, hi]
      rfl
  · have hbases := h.bases
    rw [List.reverse_cons, List.map_append] at hbases ⊢
    exact hbases
  · have hrecords := h.records
    rw [List.reverse_cons, List.flatMap_append, List.flatMap_singleton] at hrecords ⊢
    rw [Segment.add, ← List.append_assoc, hrecords]
  · intro _
    rw [Segment.beforeLast_add, ← h.currentSize]
    exact hsmall

/-- **One call of `Append`**: a new segment if the file is full, and one more record. -/
theorem Segments.append (h : Segments env init records s cur older) (event : LogEvent) :
    ∃ cur' older', older'.length = older.length + (if s.mustRoll then 1 else 0) ∧
      Segments env init (records ++ [env.format event]) (s.append env true event) cur' older' := by
  unfold AppenderState.append
  cases hroll : s.mustRoll with
  | true =>
      have hrolled := h.roll hroll
      refine ⟨_, cur :: older, by simp, hrolled.writeRecord ?_ (env.format event)⟩
      rw [hrolled.currentSize]
      exact hrolled.maxFileSize
  | false =>
      have hsmall : s.app.currentSize < s.app.maxFileSize :=
        Nat.lt_of_not_le (of_decide_eq_false hroll)
      exact ⟨_, older, by simp, h.writeRecord hsmall (env.format event)⟩

/-- **Any number of calls.** -/
theorem Segments.appendAll (h : Segments env init records s cur older) (events : List LogEvent) :
    ∃ cur' older', older'.length = older.length + s.rolls env events ∧
      Segments env init (records ++ events.map env.format) (s.appendAll env events) cur'
        older' := by
  induction events generalizing s records cur older with
  | nil => exact ⟨cur, older, rfl, by simpa [AppenderState.appendAll] using h⟩
  | cons event events ih =>
      obtain ⟨cur₁, older₁, hlen₁, h₁⟩ := h.append event
      obtain ⟨cur₂, older₂, hlen₂, h₂⟩ := ih h₁
      refine ⟨cur₂, older₂, ?_, ?_⟩
      · rw [hlen₂, hlen₁, AppenderState.rolls, Nat.add_assoc]
      · simpa [AppenderState.appendAll] using h₂

/-- The appender that the constructor makes in a directory without backups. -/
theorem segments_make (env : AppenderEnv) (files : Files Bytes UInt8) (filePath : Bytes)
    {maxSize : Nat} {maxBackup : Int} (hsize : 0 < maxSize) (hbackup : 1 ≤ maxBackup)
    (hnone : ∀ i, 1 ≤ i → files (backupPath (env.resolve filePath) i) = none) :
    Segments env ((files (env.resolve filePath)).getD []) []
      (FileAppender.make env files filePath maxSize maxBackup)
      { base := (files (env.resolve filePath)).getD [] } [] := by
  refine ⟨env.resolve_resolve filePath, rfl, hsize, hbackup, ?_, ?_, rfl, rfl, ?_, ?_⟩
  · simp [FileAppender.make, AppenderState.openFile, Files.openAppend, Segment.content]
  · intro i
    simp only [AppenderState.slot, FileAppender.make, AppenderState.openFile, if_true,
      Files.openAppend]
    by_cases hzero : i = 0
    · subst hzero
      rw [slotPath_zero, Function.update_self, if_pos (Nat.zero_le _)]
      simp [Segment.content]
    · obtain ⟨k, rfl⟩ := Nat.exists_eq_succ_of_ne_zero hzero
      have hne : slotPath (env.resolve filePath) (k + 1) ≠ env.resolve filePath := fun heq =>
        hzero (slotPath_injective (env.resolve filePath) heq)
      rw [Function.update_of_ne hne, slotPath_succ, hnone (k + 1) (by omega)]
      simp
  · intro seg hseg
    exact absurd hseg (by simp)
  · intro hne
    exact absurd rfl hne

/-! ## What is in the files -/

/-- The files after a sequence of `Append` calls with so many rolls, where `segs` is
the history of the log, newest segment first. -/
structure KeepsTail (maxSize maxBackup : Nat) (init : Bytes) (records : List Bytes) (rolls : Nat)
    (s : AppenderState) (segs : List Segment) : Prop where
  /-- Every roll has ended a segment. -/
  count : segs.length = rolls + 1
  bases : segs.reverse.map Segment.base = init :: List.replicate rolls []
  appended : segs.reverse.flatMap Segment.records = records
  /-- A file is one segment, and the files are the newest ones. -/
  slots : ∀ i, s.slot i =
    if i ≤ min rolls maxBackup then (segs[i]?).map Segment.content else none
  /-- The backups are numbered without a gap. -/
  backups : ∀ i, 1 ≤ i → ((s.slot i).isSome = true ↔ i ≤ min rolls maxBackup)
  /-- The files, read from the highest number down, are cut between two segments. -/
  boundary : s.readDown (min rolls maxBackup) =
    (segs.take (min rolls maxBackup + 1)).reverse.flatMap Segment.content
  /-- They are a suffix of all that was ever in the log. -/
  suffix : ∃ k, s.readDown (min rolls maxBackup) = ((init :: records).drop k).flatten
  /-- Nothing is lost while every segment has its backup. -/
  complete : rolls ≤ maxBackup → s.readDown (min rolls maxBackup) = init ++ records.flatten
  /-- Every rolled file was full, and not before its last record. -/
  rolled : ∀ seg ∈ segs.tail, RolledInTime maxSize seg

/-- Reading the slots down reads the segments from the oldest to the newest. -/
theorem readDown_eq {segs : List Segment} {n : Nat} (hn : n < segs.length)
    (h : ∀ i, i ≤ n → s.slot i = (segs[i]?).map Segment.content) :
    s.readDown n = (segs.take (n + 1)).reverse.flatMap Segment.content := by
  induction n with
  | zero =>
      obtain ⟨seg, rest, rfl⟩ := List.exists_cons_of_length_pos hn
      rw [AppenderState.readDown, h 0 (Nat.le_refl 0)]
      simp
  | succ n ih =>
      have hlast : segs[n + 1]? = some segs[n + 1] := List.getElem?_eq_getElem hn
      rw [AppenderState.readDown, ih (by omega) fun i hi => h i (by omega),
        h (n + 1) (Nat.le_refl _),
        List.take_succ_eq_append_getElem hn, List.reverse_append, List.flatMap_append, hlast]
      simp

/-- Segments without a base hold their records and nothing else. -/
theorem flatMap_content_of_bases {segs : List Segment} {n : Nat}
    (h : segs.map Segment.base = List.replicate n []) :
    segs.flatMap Segment.content = (segs.flatMap Segment.records).flatten := by
  induction segs generalizing n with
  | nil => rfl
  | cons seg segs ih =>
      cases n with
      | zero => exact absurd h (by simp)
      | succ n =>
          obtain ⟨hbase, hrest⟩ := List.cons.inj h
          rw [List.flatMap_cons, List.flatMap_cons, List.flatten_append, ih hrest,
            Segment.content, hbase]
          rfl

/-- The whole history is what the log held at the start and all the records. -/
theorem flatMap_content {segs : List Segment} {n : Nat}
    (h : segs.map Segment.base = init :: List.replicate n []) :
    segs.flatMap Segment.content = init ++ (segs.flatMap Segment.records).flatten := by
  cases segs with
  | nil => exact absurd h (by simp)
  | cons seg segs =>
      obtain ⟨hbase, hrest⟩ := List.cons.inj h
      rw [List.flatMap_cons, List.flatMap_cons, List.flatten_append,
        flatMap_content_of_bases hrest, Segment.content, hbase, List.append_assoc]

/-- A history without its oldest segments is a suffix of the records. -/
theorem flatMap_content_drop {segs : List Segment} {n : Nat}
    (h : segs.map Segment.base = init :: List.replicate n []) (j : Nat) :
    ∃ k, (segs.drop j).flatMap Segment.content =
      ((init :: segs.flatMap Segment.records).drop k).flatten := by
  cases j with
  | zero => exact ⟨0, flatMap_content h⟩
  | succ j =>
      have hbases : (segs.drop (j + 1)).map Segment.base = List.replicate (n - j) [] := by
        rw [List.map_drop, h, List.drop_succ_cons, List.drop_replicate]
      refine ⟨((segs.take (j + 1)).flatMap Segment.records).length + 1, ?_⟩
      rw [flatMap_content_of_bases hbases, List.drop_succ_cons]
      congr 1
      conv_rhs => rw [← List.take_append_drop (j + 1) segs, List.flatMap_append]
      rw [List.drop_left' (by simp)]

/-- The invariant says what is in the files. -/
theorem Segments.keepsTail (h : Segments env init records s cur older) :
    KeepsTail s.app.maxFileSize s.app.maxBackup.toNat init records older.length s
      (cur :: older) := by
  have hslots : ∀ i, s.slot i = if i ≤ min older.length s.app.maxBackup.toNat then
      ((cur :: older)[i]?).map Segment.content else none := by
    intro i
    rw [h.slots i, List.getElem?_map]
    by_cases hbackup : i ≤ s.app.maxBackup.toNat
    · rw [if_pos hbackup]
      by_cases hlen : i ≤ older.length
      · rw [if_pos (Nat.le_min.mpr ⟨hlen, hbackup⟩)]
      · rw [if_neg (fun hle => hlen (Nat.le_min.mp hle).1), List.getElem?_eq_none]
        · rfl
        · simp only [List.length_cons]
          omega
    · rw [if_neg hbackup, if_neg (fun hle => hbackup (Nat.le_min.mp hle).2)]
  have hmin : min older.length s.app.maxBackup.toNat ≤ older.length := Nat.min_le_left _ _
  have hread : s.readDown (min older.length s.app.maxBackup.toNat) =
      ((cur :: older).take (min older.length s.app.maxBackup.toNat + 1)).reverse.flatMap
        Segment.content :=
    readDown_eq (Nat.lt_succ_of_le hmin) fun i hi => by rw [hslots i, if_pos hi]
  refine ⟨rfl, h.bases, h.records, hslots, ?_, hread, ?_, ?_, h.rolled⟩
  · intro i _
    rw [hslots i]
    split
    · next hle =>
      have hlt : i < (cur :: older).length := by
        simp only [List.length_cons]
        omega
      simp only [List.getElem?_eq_getElem hlt, Option.map_some, Option.isSome_some, hle]
    · next hle => simp [hle]
  · rw [hread, List.reverse_take]
    obtain ⟨k, hk⟩ := flatMap_content_drop h.bases
      ((cur :: older).length - (min older.length s.app.maxBackup.toNat + 1))
    rw [h.records] at hk
    exact ⟨k, hk⟩
  · intro hle
    rw [hread, Nat.min_eq_left hle, List.take_of_length_le (by simp), flatMap_content h.bases,
      h.records]

theorem app_appendAll (env : AppenderEnv) (s : AppenderState) (events : List LogEvent) :
    (s.appendAll env events).app.maxFileSize = s.app.maxFileSize ∧
      (s.appendAll env events).app.maxBackup = s.app.maxBackup := by
  induction events generalizing s with
  | nil => exact ⟨rfl, rfl⟩
  | cons event events ih =>
      have hstep : (s.append env true event).app.maxFileSize = s.app.maxFileSize ∧
          (s.append env true event).app.maxBackup = s.app.maxBackup := by
        unfold AppenderState.append
        split <;> exact ⟨rfl, rfl⟩
      exact ⟨(ih _).1.trans hstep.1, (ih _).2.trans hstep.2⟩

/-- **Log rotation keeps a contiguous tail**: for every layout, every content of the
log at the start and every sequence of records, in a directory without backups
and as long as every file operation succeeds. -/
theorem rotation_keeps_tail (env : AppenderEnv) (files : Files Bytes UInt8) (filePath : Bytes)
    (maxSize : Nat) (maxBackup : Int) (events : List LogEvent) (hsize : 0 < maxSize)
    (hbackup : 1 ≤ maxBackup)
    (hnone : ∀ i, 1 ≤ i → files (backupPath (env.resolve filePath) i) = none) :
    ∃ segs, KeepsTail maxSize maxBackup.toNat ((files (env.resolve filePath)).getD [])
      (events.map env.format)
      ((FileAppender.make env files filePath maxSize maxBackup).rolls env events)
      ((FileAppender.make env files filePath maxSize maxBackup).appendAll env events) segs := by
  obtain ⟨cur, older, hlen, hsegs⟩ :=
    (segments_make env files filePath hsize hbackup hnone).appendAll events
  obtain ⟨hmaxSize, hmaxBackup⟩ :=
    app_appendAll env (FileAppender.make env files filePath maxSize maxBackup) events
  have hkeeps := hsegs.keepsTail
  rw [hmaxSize, hmaxBackup, hlen] at hkeeps
  refine ⟨cur :: older, ?_⟩
  simpa [FileAppender.make, AppenderState.openFile] using hkeeps

/-- One backup, and three records that fill a file each: the first one is lost. -/
theorem rotation_keeps_tail_two_rolls : ∃ s segs,
    s.readDown 1 = ascii "bbccc" ∧
      KeepsTail 2 1 [] [ascii "aa", ascii "bb", ascii "ccc"] 2 s segs := by
  let env : AppenderEnv := {
    format := LogEvent.msg, resolve := id, resolve_resolve := fun _ => rfl }
  let events : List LogEvent :=
    [{ msg := ascii "aa" }, { msg := ascii "bb" }, { msg := ascii "ccc" }]
  obtain ⟨segs, hsegs⟩ := rotation_keeps_tail env (fun _ => none) (ascii "log") 2 1 events
    (by decide) (by decide) fun _ _ => rfl
  exact ⟨_, segs, by decide, hsegs⟩

end AsioServer.Infra
