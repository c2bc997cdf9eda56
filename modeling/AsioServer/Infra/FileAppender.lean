/-
AsioServer.Infra.FileAppender — the appender that writes a log file and rolls it.

Translated from `FileAppender` in `infra/log/Logger.{h,cpp}` and the log levels
of `core/common/Const.h`. A path is its string and the directory maps paths to
contents. Sizes are unbounded: a file that could be written has a size that
fits.

`AppenderEnv` holds what the appender takes as it is: the layout, which
`SetLayout` may replace by any other, and the resolution of paths. The flag of
`openFile` says whether the stream could be opened; every failure on the way
there is caught and leaves the appender as it was, with its stream closed. What
`OpenFile` logs goes to the logger and not to this file.
-/
import AsioServer.Infra.Json
import AsioServer.Lib.Files

namespace AsioServer.Infra

open AsioServer.Core AsioServer.Lib

/-- `LogLevel`. -/
inductive LogLevel where
  | unknown
  | debug
  | info
  | warn
  | error
  | fatal
  deriving DecidableEq, Repr

/-- The number that the enumeration gives a level. -/
def LogLevel.toNat : LogLevel → Nat
  | unknown => 0
  | debug => 1
  | info => 2
  | warn => 3
  | error => 4
  | fatal => 5

/-- `LogEvent`. -/
structure LogEvent where
  time : Int := 0
  level : LogLevel := .info
  file : Bytes := []
  line : Int := 0
  msg : Bytes := []
  deriving DecidableEq, Repr

/-- What the appender takes from outside. -/
structure AppenderEnv where
  /-- `_layout->Format`. -/
  format : LogEvent → Bytes
  /-- A relative path is based on the directory of the executable, and
  `weakly_canonical` is taken of the result. -/
  resolve : Bytes → Bytes
  /-- A canonical path is its own. -/
  resolve_resolve : ∀ path, resolve (resolve path) = resolve path

/-- The fields of `FileAppender`, without its mutex. -/
structure FileAppender where
  filePath : Bytes
  maxFileSize : Nat := 100 * 1024 * 1024
  maxBackup : Int := 10
  currentSize : Nat := 0
  /-- `_fileStream.is_open()`; the open file is the one at `filePath`. -/
  isOpen : Bool := false
  deriving DecidableEq, Repr

/-- The appender with the directory it works in. -/
structure AppenderState where
  files : Files Bytes UInt8
  app : FileAppender

/-- `_filePath + "." + std::to_string(i)`. -/
def backupPath (filePath : Bytes) (i : Nat) : Bytes := filePath ++ ascii "." ++ integerText i

/-- The file with number `i`: the current one has number 0. -/
def slotPath (filePath : Bytes) (i : Nat) : Bytes :=
  if i = 0 then filePath else backupPath filePath i

namespace AppenderState

/-- `FileAppender::OpenFile`. -/
def openFile (env : AppenderEnv) (ok : Bool) (s : AppenderState) : AppenderState :=
  if ok then
    let logPath := env.resolve s.app.filePath
    let files := s.files.openAppend logPath
    { files
      app := { s.app with
        filePath := logPath
        currentSize := ((files logPath).getD []).length
        isOpen := true } }
  else { s with app := { s.app with isOpen := false } }

/-- The loop of `FileAppender::RollFile`, from `i` down to 1. -/
def renameBackups (filePath : Bytes) : Nat → Files Bytes UInt8 → Files Bytes UInt8
  | 0, files => files
  | i + 1, files =>
      let src := backupPath filePath (i + 1)
      let dst := backupPath filePath (i + 1 + 1)
      renameBackups filePath i (if (files src).isSome then files.rename src dst else files)

/-- `FileAppender::RollFile`. -/
def rollFile (env : AppenderEnv) (ok : Bool) (s : AppenderState) : AppenderState :=
  let app := { s.app with isOpen := false }
  let files := renameBackups app.filePath (app.maxBackup - 1).toNat s.files
  let files :=
    if (files app.filePath).isSome then
      files.rename app.filePath (app.filePath ++ ascii ".1")
    else files
  { files, app : AppenderState }.openFile env ok

/-- `FileAppender::Append` rolls the file before it writes. -/
def mustRoll (s : AppenderState) : Bool := decide (s.app.maxFileSize ≤ s.app.currentSize)

/-- The rest of `Append`: `<<` writes nothing on a closed stream, but the text is
counted all the same. -/
def writeRecord (text : Bytes) (s : AppenderState) : AppenderState where
  files := if s.app.isOpen then s.files.append s.app.filePath text else s.files
  app := { s.app with currentSize := s.app.currentSize + text.length }

/-- `FileAppender::Append`. -/
def append (env : AppenderEnv) (ok : Bool) (event : LogEvent) (s : AppenderState) :
    AppenderState :=
  (if s.mustRoll then s.rollFile env ok else s).writeRecord (env.format event)

/-- A sequence of `Append` calls whose file operations all succeed. -/
def appendAll (env : AppenderEnv) (s : AppenderState) : List LogEvent → AppenderState
  | [] => s
  | event :: events => appendAll env (s.append env true event) events

/-- How many of these calls roll the file. -/
def rolls (env : AppenderEnv) (s : AppenderState) : List LogEvent → Nat
  | [] => 0
  | event :: events =>
      (if s.mustRoll then 1 else 0) + rolls env (s.append env true event) events

/-- The files of the appender: the current one and its backups by number. -/
def slot (s : AppenderState) (i : Nat) : Option Bytes := s.files (slotPath s.app.filePath i)

/-- The backups from number `n` down to 1, and then the current file. -/
def readDown (s : AppenderState) : Nat → Bytes
  | 0 => (s.slot 0).getD []
  | n + 1 => (s.slot (n + 1)).getD [] ++ readDown s n

end AppenderState

/-- `FileAppender::FileAppender`, when the file can be opened. -/
def FileAppender.make (env : AppenderEnv) (files : Files Bytes UInt8) (filePath : Bytes)
    (maxSize : Nat) (maxBackup : Int) : AppenderState :=
  { files, app := { filePath, maxFileSize := maxSize, maxBackup } : AppenderState }.openFile
    env true

end AsioServer.Infra
