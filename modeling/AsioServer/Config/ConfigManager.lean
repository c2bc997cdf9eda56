/-
AsioServer.Config.ConfigManager — the settings of the server.

Translated from `config/ConfigManager.h` and `config/ConfigManager.cpp`. The port
and the size of the thread pool are read as `int` and kept as `uint16_t`.
-/
import AsioServer.Config.ConfigReader

namespace AsioServer.Config

open AsioServer.Core AsioServer.Infra

/-- `ConfigManager`. -/
structure ConfigManager where
  port : Nat
  threadPoolSize : Nat
  logPath : Bytes
  deriving DecidableEq, Repr

/-- The integer that `LoadConfig` takes for the port, before it is narrowed. -/
def portSetting (reader : ConfigReader) : Int := (reader.getInt (ascii "port")).getD 19998

/-- The integer that `LoadConfig` takes for the size of the thread pool, before
it is narrowed. -/
def threadPoolSetting (reader : ConfigReader) : Int :=
  (reader.getInt (ascii "thread_pool_size")).getD 2

/-- What `LoadConfig` takes out of the reader. -/
def readSettings (reader : ConfigReader) : ConfigManager :=
  { port := (Json.toUInt16 (portSetting reader)).toNat
    threadPoolSize := (Json.toUInt16 (threadPoolSetting reader)).toNat
    logPath := (reader.getString (ascii "log_path")).getD (ascii "./server.log") }

/-- `LoadConfig`. -/
def loadConfig (fs : FileSystem) (configPath : Bytes) : ConfigManager :=
  readSettings (ConfigReader.new fs configPath)

end AsioServer.Config
