/-
AsioServer.Infra.RollingLogger — the logger with its file appender.

Translated from `FileAppender::Append`, `RollFile` and `OpenFile` in
`infra/log/Logger.cpp`. In `Logger` an appender may log whatever it likes; here the only
lines logged from within `DispatchLog` are the `LOG_INFO` lines of `OpenFile`, and it
runs only when `Append` rolls the file.

An `Append` in progress is what it has still to log, and whether the file could be opened
in the end. The files change when it returns: nobody else looks at them before.
-/
import AsioServer.Infra.Logger

namespace AsioServer.Infra

open AsioServer.Core AsioServer.Lib

/-! ## The lines of OpenFile -/

/-- How `OpenFile` goes. -/
inductive Opening where
  /-- `weakly_canonical` throws. -/
  | unresolved
  /-- The path is resolved; whether the directory was created and the file opened. -/
  | resolved (created opened : Bool)
  deriving DecidableEq, Repr

def Opening.opened : Opening → Bool
  | unresolved => false
  | resolved _ opened => opened

/-- `<<` of a path: in quotes, with escapes. -/
def quotedPath (path : Bytes) : Bytes :=
  ascii "\"" ++ (path.flatMap fun b => if b = 0x22 ∨ b = 0x5C then [0x5C, b] else [b]) ++
    ascii "\""

/-- `parent_path()` of a canonical path. -/
def parentPath (path : Bytes) : Bytes :=
  let front := (path.reverse.dropWhile (· ≠ 0x2F)).reverse
  if 1 < front.length then front.dropLast else front

/-- The `LOG_INFO` lines of `OpenFile`; `stamp` has their time and place. -/
def openLines (stamp : LogEvent) (logPath : Bytes) : Opening → List LogEvent
  | .unresolved => []
  | .resolved created _ =>
      let line (text path : Bytes) : LogEvent :=
        { stamp with level := .info, msg := text ++ quotedPath path ++ ascii "\n" }
      let dirPath := parentPath logPath
      [line (ascii "Opening log file: ") logPath, line (ascii "Log directory: ") dirPath] ++
        if created then [line (ascii "Created log directory: ") dirPath] else []

/-! ## The logger with the appender -/

/-- An `Append` in progress. -/
structure Appending where
  lines : List LogEvent
  opened : Bool
  deriving DecidableEq, Repr

structure RollingLogger where
  logger : LoggerState
  appender : AppenderState
  inAppend : Option Appending := none

/-- The steps. -/
inductive RollEvent where
  /-- A step of the logger that is none of the appender. -/
  | logger (event : LoggerEvent)
  /-- Thread `i` calls `Append`. -/
  | begin (i : Nat) (stamp : LogEvent) (opening : Opening)
  /-- The next line of `OpenFile`. -/
  | line (i : Nat)
  /-- `Append` returns, and with it `DispatchLog`. -/
  | finish (i : Nat)
  deriving DecidableEq, Repr

/-- Thread `i` is in the loop over the appenders. -/
def LoggerState.isAppending (s : LoggerState) (i : Nat) : Bool :=
  match s.threads[i]? with
  | some (.dispatch _ _ .appending) => true
  | _ => false

/-- The step belongs to the logger, not to an appender. -/
def LoggerState.isOwn (s : LoggerState) : LoggerEvent → Bool
  | .append _ _ => false
  | .step i _ => !s.isAppending i
  | _ => true

namespace RollingLogger

/-- What `Append` does first: it rolls the file, or it has nothing to log. -/
def startAppend (env : AppenderEnv) (s : RollingLogger) (stamp : LogEvent) (opening : Opening) :
    Appending :=
  if s.appender.mustRoll then
    { lines := openLines stamp (env.resolve s.appender.app.filePath) opening
      opened := opening.opened }
  else { lines := [], opened := true }

end RollingLogger

/-- One step. -/
def rollStep (env : AppenderEnv) (s : RollingLogger) : RollEvent → Option RollingLogger
  | .logger event =>
      if s.logger.isOwn event then
        (loggerStep s.logger event).map fun logger => { s with logger }
      else none
  | .begin i stamp opening =>
      if s.logger.status = .running ∧ s.logger.isAppending i = true ∧ s.inAppend = none then
        some { s with inAppend := some (s.startAppend env stamp opening) }
      else none
  | .line i =>
      match s.inAppend with
      | some { lines := line :: lines, opened } =>
          (loggerStep s.logger (.append i line)).map fun logger =>
            { s with logger, inAppend := some { lines, opened } }
      | _ => none
  | .finish i =>
      match s.inAppend, s.logger.threads[i]? with
      | some { lines := [], opened }, some (.dispatch _ event .appending) =>
          (loggerStep s.logger (.step i none)).map fun logger =>
            { logger, appender := s.appender.append env opened event, inAppend := none }
      | _, _ => none

/-- A new logger with a file appender. -/
def RollingLogger.make (level : LogLevel) (callers : Nat) (appender : AppenderState) :
    RollingLogger :=
  { logger := .make level callers, appender }

end AsioServer.Infra
