/-
AsioServer.App.Main — the port that the server listens on.

Translated from `app/server_coroutine/main.cpp`: `GetPortFromConfig` and the part of
`main` that leads to it. The check of the range comes after `ConfigManager` has
narrowed the setting to `uint16_t`, so that it sees the integer modulo 2^16
(`serverPort_eq`): its upper bound never applies, and an integer outside 16 bits
passes for the port that it wraps to (`server_port_iff`).
-/
import AsioServer.Config.ConfigManager
import AsioServer.Config.ConfigReaderTheorems
import AsioServer.Infra.JsonTheorems

namespace AsioServer.App

open AsioServer.Core AsioServer.Infra AsioServer.Config

/-! ## The port -/

/-- `GetPortFromConfig`. -/
def getPortFromConfig (config : ConfigManager) : Nat :=
  let port := config.port
  if port > 65535 ∨ port < 1024 then 19998 else port

/-- The port with which `main` constructs the server. -/
def serverPort (fs : FileSystem) (configPath : Bytes) : Nat :=
  getPortFromConfig (loadConfig fs configPath)

theorem port_lt (reader : ConfigReader) : (readSettings reader).port < 65536 := by
  change (portSetting reader % 65536).toNat < 65536
  omega

/-- The upper bound of the check is above everything a `uint16_t` holds. -/
theorem getPortFromConfig_readSettings (reader : ConfigReader) :
    (getPortFromConfig (readSettings reader) : Int) =
      if portSetting reader % 65536 < 1024 then 19998 else portSetting reader % 65536 := by
  have hlt := port_lt reader
  have hport : ((readSettings reader).port : Int) = portSetting reader % 65536 := by
    change ((portSetting reader % 65536).toNat : Int) = _
    omega
  unfold getPortFromConfig
  dsimp only
  split <;> split <;> omega

/-- The integer in the file reaches the check modulo 2^16. -/
theorem serverPort_eq {fs : FileSystem} {configPath : Bytes} {j : Json} {p : Int}
    (hload : loadable fs configPath = some j)
    (hp : valueAt j (ascii "port") = some (.integer p)) :
    (serverPort fs configPath : Int) = if p % 65536 < 1024 then 19998 else p % 65536 := by
  have hnew := reflects_new fs configPath
  have hraw : (ConfigReader.new fs configPath).getRawConfig = j := by
    rw [hnew.rawConfig, hload]; rfl
  have hsetting : portSetting (ConfigReader.new fs configPath) = Json.toInt32 p := by
    rw [portSetting, ConfigReader.getInt, hnew.get, hraw, hp]; rfl
  have hmod : Json.toInt32 p % 65536 = p % 65536 := toUInt16_toInt32 p
  rw [serverPort, loadConfig, getPortFromConfig_readSettings, hsetting, hmod]

/-- **The server listens on the configured port if that is a port in the allowed
range, and on the default otherwise, exactly for the integers in the range and those
that wrap to a forbidden port or to the default.** -/
theorem server_port_iff {fs : FileSystem} {configPath : Bytes} {j : Json} {p : Int}
    (hload : loadable fs configPath = some j)
    (hp : valueAt j (ascii "port") = some (.integer p)) :
    (serverPort fs configPath : Int) = (if 1024 ≤ p ∧ p ≤ 65535 then p else 19998) ↔
      (1024 ≤ p ∧ p ≤ 65535) ∨ p % 65536 < 1024 ∨ p % 65536 = 19998 := by
  rw [serverPort_eq hload hp]
  split <;> split <;> omega

/-- A configuration file with a port. -/
def portFile (p : Int) : FileSystem :=
  oneFile (some (.object [(ascii "port", .integer p)]))

theorem server_port_iff_default :
    (serverPort (portFile 65536) (ascii "a.json") : Int) =
        (if 1024 ≤ (65536 : Int) ∧ (65536 : Int) ≤ 65535 then 65536 else 19998) ↔
      (1024 ≤ (65536 : Int) ∧ (65536 : Int) ≤ 65535) ∨ (65536 : Int) % 65536 < 1024 ∨
        (65536 : Int) % 65536 = 19998 :=
  @server_port_iff (portFile 65536) (ascii "a.json")
    (.object [(ascii "port", .integer 65536)]) 65536 (by rfl) (by rfl)

/-- The integer 73616 is no port; the server listens on 8080. -/
theorem wrapped_port_is_used :
    serverPort (portFile 73616) (ascii "a.json") = 8080 ∧
      (serverPort (portFile 73616) (ascii "a.json") : Int) ≠
        (if 1024 ≤ (73616 : Int) ∧ (73616 : Int) ≤ 65535 then 73616 else 19998) := by
  decide +kernel

end AsioServer.App
