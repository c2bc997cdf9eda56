/-
AsioServer.Infra.LogRestart — the log files over the lives of several processes.

Translated from `FileAppender` in `infra/log/Logger.cpp`, as `FileAppender.lean` does, with
the places where a process can be killed. `RollFile` is its list of renames, since it may
stop between any two of them, killed or by an `fs::rename` that throws, and a text may be
cut anywhere. A rename itself is atomic.

What is killed leaves its files, and the next process opens them with the same arguments.
`appended` has the text of every call of `Append` since the beginning and what of it the
stream was given: nothing where the stream was closed or `RollFile` did not return.
-/
import AsioServer.Infra.BackupTheorems
import AsioServer.Lib.Climb

namespace AsioServer.Infra

open AsioServer.Core AsioServer.Lib

/-- The renames in the loop of `FileAppender::RollFile`, from `i` down to 1. -/
def backupRenames (filePath : Bytes) : Nat → List (Bytes × Bytes)
  | 0 => []
  | i + 1 => (backupPath filePath (i + 1), backupPath filePath (i + 1 + 1)) ::
      backupRenames filePath i

/-- All the renames of `FileAppender::RollFile`, in their order. -/
def rollRenames (filePath : Bytes) (maxBackup : Int) : List (Bytes × Bytes) :=
  backupRenames filePath (maxBackup - 1).toNat ++ [(filePath, filePath ++ ascii ".1")]

/-- `fs::rename`, if `fs::exists`. -/
def renameIfExists (files : Files Bytes UInt8) (p : Bytes × Bytes) : Files Bytes UInt8 :=
  if (files p.1).isSome then files.rename p.1 p.2 else files

/-- `FileAppender::RollFile` up to its first `k` renames. -/
def AppenderState.stopRoll (k : Nat) (s : AppenderState) : AppenderState where
  files := ((rollRenames s.app.filePath s.app.maxBackup).take k).foldl renameIfExists s.files
  app := { s.app with isOpen := false }

/-- The arguments of `FileAppender::FileAppender`. -/
structure LogConfig where
  filePath : Bytes
  maxFileSize : Nat
  maxBackup : Int

/-- A text for the log, and what of it the stream was given. -/
structure LogText where
  text : Bytes
  given : Option Bytes
  deriving DecidableEq, Repr

/-- The directory of the log, and the appender while a process runs. -/
structure LogDisk where
  files : Files Bytes UInt8
  app : Option FileAppender := none
  appended : List LogText := []

/-- The texts that the streams were given. -/
def LogDisk.written (s : LogDisk) : List Bytes := s.appended.filterMap LogText.given

/-- A process runs whose next `Append` rolls the file. -/
def LogDisk.full (s : LogDisk) : Bool :=
  s.app.any fun app => AppenderState.mustRoll ⟨s.files, app⟩

/-- What happens to it. -/
inductive LogDiskEvent where
  /-- A process opens the log. -/
  | start
  | append (call : AppendCall)
  /-- `RollFile` ends with the exception of a rename, after `k` that were done. -/
  | renameThrows (event : LogEvent) (k : Nat)
  | kill
  /-- The process is killed in `RollFile` after `k` renames. -/
  | killInRoll (event : LogEvent) (k : Nat)
  /-- The process is killed when `n` bytes of the text have been written. -/
  | killInWrite (call : AppendCall) (n : Nat)

/-- What the stream is given when a text is written: a closed one loses it. -/
def FileAppender.given (app : FileAppender) (text : Bytes) : Option Bytes :=
  if app.isOpen then some text else none

/-- `Append` up to the point where it writes. -/
def AppenderState.rollIfFull (env : AppenderEnv) (ok : Bool) (s : AppenderState) : AppenderState :=
  if s.mustRoll then s.rollFile env ok else s

/-- One event. -/
def logDiskStep (env : AppenderEnv) (cfg : LogConfig) (s : LogDisk) :
    LogDiskEvent → Option LogDisk
  | .start =>
      if s.app.isNone then
        let t := FileAppender.make env s.files cfg.filePath cfg.maxFileSize cfg.maxBackup
        some { s with files := t.files, app := some t.app }
      else none
  | .append call => s.app.map fun app =>
      let t := (⟨s.files, app⟩ : AppenderState).append env call.reopens call.event
      let text := env.format call.event
      { files := t.files, app := some t.app
        appended := s.appended ++ [⟨text, t.app.given text⟩] }
  | .renameThrows event k => s.app.bind fun app =>
      let t : AppenderState := ⟨s.files, app⟩
      if t.mustRoll ∧ k < (rollRenames app.filePath app.maxBackup).length then
        some { files := (t.stopRoll k).files, app := some (t.stopRoll k).app
               appended := s.appended ++ [⟨env.format event, none⟩] }
      else none
  | .kill => s.app.map fun _ => { s with app := none }
  | .killInRoll event k => s.app.bind fun app =>
      let t : AppenderState := ⟨s.files, app⟩
      if t.mustRoll then
        some { files := (t.stopRoll k).files, app := none
               appended := s.appended ++ [⟨env.format event, none⟩] }
      else none
  | .killInWrite call n => s.app.map fun app =>
      let t := (⟨s.files, app⟩ : AppenderState).rollIfFull env call.reopens
      let text := env.format call.event
      { files := (t.writeRecord (text.take n)).files, app := none
        appended := s.appended ++ [⟨text, t.app.given (text.take n)⟩] }

/-- How many backups the appender can have: the current file becomes one in any case. -/
def LogConfig.backups (cfg : LogConfig) : Nat := (cfg.maxBackup - 1).toNat + 1

/-- The log as it is read: its files from the highest number down to the current one. -/
def LogConfig.logFiles (env : AppenderEnv) (cfg : LogConfig) (files : Files Bytes UInt8) :
    List Bytes :=
  (Files.held (slotPath (env.resolve cfg.filePath)) files (cfg.backups + 1)).reverse

end AsioServer.Infra
