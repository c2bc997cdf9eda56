/-
AsioServer.Config.ConfigReader — one configuration file and what is read from it.

Translated from `config/ConfigReader.h` and `config/ConfigReader.cpp`. `Get` looks
a key up as the JSON pointer `"/" + key`, so that a `/` in the key goes one
level down. Whatever throws on the way is caught and answers nothing.
-/
import AsioServer.Infra.Json

namespace AsioServer.Config

open AsioServer.Core AsioServer.Infra

/-! ## JSON pointers -/

/-- One token of a pointer without its escapes: `~0` is `~` and `~1` is `/`. Any
other use of `~` throws. -/
def unescape : Bytes → Option Bytes
  | [] => some []
  | b :: rest =>
      if b = 0x7E then
        match rest with
        | [] => none
        | c :: rest =>
            if c = 0x30 then (unescape rest).map (0x7E :: ·)
            else if c = 0x31 then (unescape rest).map (0x2F :: ·)
            else none
      else (unescape rest).map (b :: ·)

/-- The tokens of the pointer `"/" + key`. -/
def tokens (key : Bytes) : Option (List Bytes) := (key.splitOn 0x2F).mapM unescape

/-- A token as the index of an array: decimal, with no zero in front. -/
def arrayIndex (token : Bytes) : Option Nat :=
  if token = [] ∨ (1 < token.length ∧ token.head? = some 0x30) then none
  else if token.all fun b => 0x30 ≤ b ∧ b ≤ 0x39 then
    some (token.foldl (fun n b => 10 * n + (b.toNat - 48)) 0)
  else none

/-- What `contains` and `at` find behind the tokens. -/
def pointed (j : Json) : List Bytes → Option Json
  | [] => some j
  | token :: rest =>
      match j with
      | .object fields => (fields.lookup token).bind fun member => pointed member rest
      | .array items =>
          (arrayIndex token).bind fun i => items[i]?.bind fun item => pointed item rest
      | _ => none

/-! ## The reader -/

/-- `ConfigReader`. -/
structure ConfigReader where
  configJson : Option Json
  configFilePath : Bytes
  isLoaded : Bool

namespace ConfigReader

/-- `HasKey`. -/
def hasKey (reader : ConfigReader) (key : Bytes) : Bool :=
  reader.isLoaded && ((reader.configJson.bind fun j => (tokens key).bind (pointed j)).isSome)

/-- `GetRawConfig`. -/
def getRawConfig (reader : ConfigReader) : Json := reader.configJson.getD .null

/-- `Get<T>`, given the conversion to `T`. -/
def get {α : Type} (convert : Json → Option α) (reader : ConfigReader) (key : Bytes) : Option α :=
  if reader.isLoaded then
    reader.configJson.bind fun j => ((tokens key).bind (pointed j)).bind convert
  else none

/-- `GetInt`. -/
def getInt (reader : ConfigReader) (key : Bytes) : Option Int := reader.get Json.getInt key

/-- `GetString`. -/
def getString (reader : ConfigReader) (key : Bytes) : Option Bytes := reader.get Json.getString key

end ConfigReader

/-! ## Loading -/

/-- The file system while a file is loaded. -/
structure FileSystem where
  /-- The canonical path, below the directory of the program when it was
  relative; `none` is an exception. -/
  resolve : Bytes → Option Bytes
  /-- What `file >> j` reads: `none` for a file that is missing, cannot be
  opened or holds no JSON. -/
  read : Bytes → Option Json

/-- `extension()` of the last component of a path: what follows its last dot,
unless that is its first byte. -/
def extension (path : Bytes) : Bytes :=
  let name := (path.splitOn 0x2F).getLastD []
  match (name.splitOn 0x2E).reverse with
  | last :: front :: rest => if rest = [] ∧ front = [] ∨ name = ascii ".." then [] else 0x2E :: last
  | _ => []

/-- `ValidateConfigPath`. -/
def validateConfigPath (path : Bytes) : Bool := path ≠ [] && extension path == ascii ".json"

/-- `empty()` of a JSON value. -/
def isEmpty : Json → Bool
  | .null => true
  | .array items => items.isEmpty
  | .object fields => fields.isEmpty
  | _ => false

namespace ConfigReader

/-- `LoadConfig`, with its result. -/
def loadConfig (fs : FileSystem) (reader : ConfigReader) : ConfigReader × Bool :=
  if validateConfigPath reader.configFilePath then
    match fs.resolve reader.configFilePath with
    | none => (reader, false)
    | some configPath =>
        match fs.read configPath with
        | none => (reader, false)
        | some j =>
            if isEmpty j then (reader, false)
            else ({ reader with configFilePath := configPath, configJson := some j }, true)
  else (reader, false)

/-- The constructor. -/
def new (fs : FileSystem) (configPath : Bytes) : ConfigReader :=
  let reader : ConfigReader :=
    { configJson := none, configFilePath := configPath, isLoaded := false }
  let (reader, loaded) := reader.loadConfig fs
  { reader with isLoaded := loaded }

/-- `SetConfigPath`. -/
def setConfigPath (newPath : Bytes) (reader : ConfigReader) : ConfigReader :=
  if validateConfigPath newPath then { reader with configFilePath := newPath } else reader

/-- `ReloadConfig`. -/
def reloadConfig (fs : FileSystem) (reader : ConfigReader) : ConfigReader × Bool :=
  reader.loadConfig fs

end ConfigReader

end AsioServer.Config
