/-
AsioServer.Infra.Json — JSON values, their text, and what the server asks of
the parser.

Translated from the parts of `infra/util/json.hpp` that the services call:
`at`, `get<std::string>`, `get<int>` and `dump`. An operation that throws
answers `none`. `parse` and the text of a floating-point number stay
parameters (`JsonLib`): of the parser the server needs that the strings it
returns are UTF-8, which its lexer checks byte by byte.

`dump` writes the bytes of a string as they are, apart from the escapes, and
throws at a byte that the decoder `utf8Step` rejects; it does so too when the
string ends inside a character.
-/
import AsioServer.Core.Message

namespace AsioServer.Infra

open AsioServer.Core

/-- The bytes of an ASCII literal. -/
def ascii (s : String) : Bytes := s.toList.map fun c => c.toNat.toUInt8

/-- `nlohmann::json`. Integers of either sign are one constructor; an object is
its entries in the order of the map. -/
inductive Json where
  | null
  | boolean (b : Bool)
  | integer (i : Int)
  | float (q : Rat)
  | string (s : Bytes)
  | array (items : List Json)
  | object (fields : List (Bytes × Json))

/-! ## Access -/

namespace Json

/-- `at(key)`: `none` for a value that is no object, and for a missing key. -/
def atKey (j : Json) (key : Bytes) : Option Json :=
  match j with
  | object fields => fields.lookup key
  | _ => none

/-- `get<std::string>()`. -/
def getString : Json → Option Bytes
  | string s => some s
  | _ => none

/-- `static_cast<int>` of a 64-bit integer. -/
def toInt32 (i : Int) : Int := (BitVec.ofInt 32 i).toInt

/-- `get<int>()`, which converts numbers of all kinds and booleans. -/
def getInt : Json → Option Int
  | integer i => some (toInt32 i)
  | float q => some (toInt32 (q.num.tdiv q.den))
  | boolean b => some (if b then 1 else 0)
  | _ => none

/-- `static_cast<uint16_t>` of a 64-bit integer. -/
def toUInt16 (i : Int) : Int := i % 65536

/-- `get<uint16_t>()`, which converts numbers of all kinds and booleans. -/
def getUInt16 : Json → Option Int
  | integer i => some (toUInt16 i)
  | float q => some (toUInt16 (q.num.tdiv q.den))
  | boolean b => some (if b then 1 else 0)
  | _ => none

/-- `get<bool>()`. -/
def getBool : Json → Option Bool
  | boolean b => some b
  | _ => none

/-- `contains(key)`. -/
def contains (j : Json) (key : Bytes) : Bool := (j.atKey key).isSome

/-- `value(key, default)`: `none` for a value that is no object. -/
def value {α : Type} (get : Json → Option α) (default : α) (key : Bytes) (j : Json) : Option α :=
  match j with
  | object fields =>
      match fields.lookup key with
      | some member => get member
      | none => some default
  | _ => none

/-- What a `for` over the value visits. -/
def elements : Json → List Json
  | null => []
  | array items => items
  | object fields => fields.map Prod.snd
  | j => [j]

end Json

/-! ## UTF-8 -/

/-- The states of the decoder in `dump_escaped`. -/
inductive Utf8 where
  | accept
  | reject
  /-- One, two or three continuation bytes are due. -/
  | one
  | two
  | three
  /-- After `E0`, `ED`, `F0` and `F4`, which narrow the next byte. -/
  | afterE0
  | afterED
  | afterF0
  | afterF4
  deriving DecidableEq, Repr

/-- The next state, when the byte lies between the bounds. -/
def Utf8.within (lo hi byte : UInt8) (next : Utf8) : Utf8 :=
  if lo ≤ byte ∧ byte ≤ hi then next else .reject

/-- One byte of the decoder. -/
def Utf8.step : Utf8 → UInt8 → Utf8
  | accept, byte =>
      if byte ≤ 0x7F then accept
      else if byte < 0xC2 then reject
      else if byte ≤ 0xDF then one
      else if byte = 0xE0 then afterE0
      else if byte = 0xED then afterED
      else if byte ≤ 0xEF then two
      else if byte = 0xF0 then afterF0
      else if byte ≤ 0xF3 then three
      else if byte = 0xF4 then afterF4
      else reject
  | reject, _ => reject
  | one, byte => within 0x80 0xBF byte accept
  | two, byte => within 0x80 0xBF byte one
  | three, byte => within 0x80 0xBF byte two
  | afterE0, byte => within 0xA0 0xBF byte one
  | afterED, byte => within 0x80 0x9F byte one
  | afterF0, byte => within 0x90 0xBF byte two
  | afterF4, byte => within 0x80 0x8F byte two

/-- The bytes are UTF-8. -/
def isUtf8 (s : Bytes) : Bool := s.foldl Utf8.step .accept == .accept

mutual

/-- All strings in the value are UTF-8. -/
def Json.isText : Json → Bool
  | .string s => isUtf8 s
  | .array items => isTextItems items
  | .object fields => isTextFields fields
  | _ => true

def isTextItems : List Json → Bool
  | [] => true
  | j :: items => j.isText && isTextItems items

def isTextFields : List (Bytes × Json) → Bool
  | [] => true
  | (key, j) :: fields => isUtf8 key && (j.isText && isTextFields fields)

end

/-! ## The parser -/

/-- What the server takes from the library as it is. -/
structure JsonLib where
  /-- `nlohmann::json::parse`; `none` is the exception. -/
  parse : Bytes → Option Json
  /-- The text of a floating-point number. -/
  floatText : Rat → Bytes
  /-- The lexer lets only UTF-8 strings pass. -/
  parse_isText : ∀ {b j}, parse b = some j → j.isText = true

/-! ## dump -/

/-- A lower-case hexadecimal digit. -/
def hexDigit (n : UInt8) : UInt8 := if n < 10 then 0x30 + n else 0x57 + n

/-- A byte inside the quotes of a string. -/
def escapeByte (b : UInt8) : Bytes :=
  if b = 0x08 then ascii "\\b"
  else if b = 0x09 then ascii "\\t"
  else if b = 0x0A then ascii "\\n"
  else if b = 0x0C then ascii "\\f"
  else if b = 0x0D then ascii "\\r"
  else if b = 0x22 then ascii "\\\""
  else if b = 0x5C then ascii "\\\\"
  else if b ≤ 0x1F then ascii "\\u00" ++ [hexDigit (b / 16), hexDigit (b % 16)]
  else [b]

/-- A string in its quotes; `none` is `type_error` 316. -/
def quoted (s : Bytes) : Option Bytes :=
  if isUtf8 s then some (ascii "\"" ++ s.flatMap escapeByte ++ ascii "\"") else none

/-- The decimal digits of a number, before those in `acc`. -/
def digits : Nat → Nat → Bytes → Bytes
  | 0, _, acc => acc
  | fuel + 1, n, acc =>
      let acc := (48 + n % 10).toUInt8 :: acc
      if n < 10 then acc else digits fuel (n / 10) acc

/-- `dump_integer` and `std::to_string`. -/
def integerText (i : Int) : Bytes :=
  let text := digits (i.natAbs + 1) i.natAbs []
  if i < 0 then ascii "-" ++ text else text

/-- The members of an array or object between their brackets. With an indent
step each stands on a line of its own. -/
def bracket (step : Option Nat) (cur : Nat) (left right : Bytes) (members : List Bytes) : Bytes :=
  match members with
  | [] => left ++ right
  | members =>
      match step with
      | none => left ++ (members.intersperse (ascii ",")).flatten ++ right
      | some n =>
          let lines := members.map fun m => List.replicate (cur + n) 0x20 ++ m
          left ++ ascii "\n" ++ (lines.intersperse (ascii ",\n")).flatten ++ ascii "\n" ++
            List.replicate cur 0x20 ++ right

mutual

/-- `serializer::dump`, with the indent step when the text is pretty-printed. -/
def Json.text (lib : JsonLib) (step : Option Nat) (cur : Nat) : Json → Option Bytes
  | .null => some (ascii "null")
  | .boolean b => some (if b then ascii "true" else ascii "false")
  | .integer i => some (integerText i)
  | .float q => some (lib.floatText q)
  | .string s => quoted s
  | .array items =>
      (textItems lib step (cur + step.getD 0) items).map
        (bracket step cur (ascii "[") (ascii "]"))
  | .object fields =>
      (textFields lib step (cur + step.getD 0) fields).map
        (bracket step cur (ascii "\x7b") (ascii "\x7d"))

def textItems (lib : JsonLib) (step : Option Nat) (cur : Nat) : List Json → Option (List Bytes)
  | [] => some []
  | j :: items => do
      let member ← j.text lib step cur
      let members ← textItems lib step cur items
      return member :: members

def textFields (lib : JsonLib) (step : Option Nat) (cur : Nat) :
    List (Bytes × Json) → Option (List Bytes)
  | [] => some []
  | (key, j) :: fields => do
      let name ← quoted key
      let value ← j.text lib step cur
      let members ← textFields lib step cur fields
      return (name ++ ascii (if step.isSome then ": " else ":") ++ value) :: members

end

/-- `dump()`. -/
def Json.dump (lib : JsonLib) (j : Json) : Option Bytes := j.text lib none 0

/-- `dump(4)`. -/
def Json.dump4 (lib : JsonLib) (j : Json) : Option Bytes := j.text lib (some 4) 0

end AsioServer.Infra
