/-
AsioServer.Infra.JsonLexer — the bytes of a JSON text as tokens.

Translated from `class lexer` in `infra/util/json.hpp`, as `nlohmann::json::parse`
uses it: without comments, and with the point of the "C" locale in numbers.

`scan` answers the token at the front of the input and what is left of it. The
input has been read to its end when the list is empty, which is `eof()`; a NUL
outside a string ends it too. After a `parse_error` nothing more is read. A
loop that reads byte by byte until it returns takes the length of its input as
fuel.

`strtod` is the conversion of the C library; it answers `none` where the result
is not finite.
-/
import AsioServer.Infra.Json

namespace AsioServer.Infra

open AsioServer.Core

/-- `token_type`, with the value that the getters return for it. -/
inductive Token where
  | literalTrue
  | literalFalse
  | literalNull
  | valueString (s : Bytes)
  | valueUnsigned (n : Nat)
  | valueInteger (i : Int)
  | valueFloat (q : Option Rat)
  | beginArray
  | beginObject
  | endArray
  | endObject
  | nameSeparator
  | valueSeparator
  | parseError
  | endOfInput
  deriving DecidableEq, Repr

namespace Lexer

/-! ## Strings -/

/-- A hexadecimal digit of either case. -/
def hexValue (b : UInt8) : Option Nat :=
  if 0x30 ≤ b ∧ b ≤ 0x39 then some (b.toNat - 0x30)
  else if 0x41 ≤ b ∧ b ≤ 0x46 then some (b.toNat - 0x37)
  else if 0x61 ≤ b ∧ b ≤ 0x66 then some (b.toNat - 0x57)
  else none

/-- The loop of `get_codepoint`: a digit for each of the factors. -/
def readDigits : List Nat → Bytes → Option (Nat × Bytes)
  | [], input => some (0, input)
  | _ :: _, [] => none
  | factor :: factors, c :: rest =>
      (hexValue c).bind fun digit =>
        (readDigits factors rest).map fun r => (digit <<< factor + r.1, r.2)

/-- `get_codepoint`: the four digits after `\u`. -/
def getCodepoint (input : Bytes) : Option (Nat × Bytes) := readDigits [12, 8, 4, 0] input

/-- The bytes that are added for a code point. -/
def codepointBytes (codepoint : Nat) : Bytes :=
  if codepoint < 0x80 then [codepoint.toUInt8]
  else if codepoint ≤ 0x7FF then
    [(0xC0 ||| codepoint >>> 6).toUInt8, (0x80 ||| codepoint % 0x40).toUInt8]
  else if codepoint ≤ 0xFFFF then
    [(0xE0 ||| codepoint >>> 12).toUInt8, (0x80 ||| (codepoint >>> 6) % 0x40).toUInt8,
      (0x80 ||| codepoint % 0x40).toUInt8]
  else
    [(0xF0 ||| codepoint >>> 18).toUInt8, (0x80 ||| (codepoint >>> 12) % 0x40).toUInt8,
      (0x80 ||| (codepoint >>> 6) % 0x40).toUInt8, (0x80 ||| codepoint % 0x40).toUInt8]

/-- What `\u` and its digits stand for; a high surrogate needs a low one behind it. -/
def scanUnicode (input : Bytes) : Option (Bytes × Bytes) :=
  (getCodepoint input).bind fun (codepoint1, rest) =>
    if 0xD800 ≤ codepoint1 ∧ codepoint1 ≤ 0xDBFF then
      if (ascii "\\u").isPrefixOf rest then
        (getCodepoint (rest.drop 2)).bind fun (codepoint2, rest) =>
          if 0xDC00 ≤ codepoint2 ∧ codepoint2 ≤ 0xDFFF then
            some (codepointBytes (codepoint1 <<< 10 + codepoint2 - 0x35FDC00), rest)
          else none
      else none
    else if 0xDC00 ≤ codepoint1 ∧ codepoint1 ≤ 0xDFFF then none
    else some (codepointBytes codepoint1, rest)

/-- The escapes of one letter, and what they add. -/
def letterEscapes : List (UInt8 × UInt8) :=
  [(0x22, 0x22), (0x5C, 0x5C), (0x2F, 0x2F), (0x62, 0x08), (0x66, 0x0C), (0x6E, 0x0A),
    (0x72, 0x0D), (0x74, 0x09)]

/-- The character after a backslash. -/
def scanEscape : Bytes → Option (Bytes × Bytes)
  | [] => none
  | c :: rest =>
      if c = 0x75 then scanUnicode rest else (letterEscapes.lookup c).map fun b => ([b], rest)

/-- `next_byte_in_range`: the bytes that follow the current one. -/
def nextByteInRange : List (UInt8 × UInt8) → Bytes → Option (Bytes × Bytes)
  | [], rest => some ([], rest)
  | _ :: _, [] => none
  | (lo, hi) :: ranges, b :: rest =>
      if lo ≤ b ∧ b ≤ hi then (nextByteInRange ranges rest).map fun r => (b :: r.1, r.2)
      else none

/-- The ranges of the bytes that have to follow a byte from `80` on; `none` for a byte
that begins no character. -/
def followers (b : UInt8) : Option (List (UInt8 × UInt8)) :=
  if b < 0xC2 then none
  else if b ≤ 0xDF then some [(0x80, 0xBF)]
  else if b = 0xE0 then some [(0xA0, 0xBF), (0x80, 0xBF)]
  else if b = 0xED then some [(0x80, 0x9F), (0x80, 0xBF)]
  else if b ≤ 0xEF then some [(0x80, 0xBF), (0x80, 0xBF)]
  else if b = 0xF0 then some [(0x90, 0xBF), (0x80, 0xBF), (0x80, 0xBF)]
  else if b ≤ 0xF3 then some [(0x80, 0xBF), (0x80, 0xBF), (0x80, 0xBF)]
  else if b = 0xF4 then some [(0x80, 0x8F), (0x80, 0xBF), (0x80, 0xBF)]
  else none

/-- One round of the loop in `scan_string`, for a byte that is not the closing quote:
what is added to the token, and the input after it. -/
def scanChar (b : UInt8) (rest : Bytes) : Option (Bytes × Bytes) :=
  if b = 0x5C then scanEscape rest
  else if b ≤ 0x1F then none
  else if b ≤ 0x7F then some ([b], rest)
  else
    (followers b).bind fun ranges =>
      (nextByteInRange ranges rest).map fun r => (b :: r.1, r.2)

/-- `scan_string`, behind the opening quote, with the bytes of the token so far. -/
def scanString : Nat → Bytes → Bytes → Option (Bytes × Bytes)
  | 0, _, _ => none
  | _ + 1, _, [] => none
  | fuel + 1, token, b :: rest =>
      if b = 0x22 then some (token, rest)
      else (scanChar b rest).bind fun r => scanString fuel (token ++ r.1) r.2

/-! ## Numbers -/

/-- The labels of `scan_number`. -/
inductive NumberState where
  | init
  | minus
  | zero
  | any1
  | decimal1
  | decimal2
  | exponent
  | sign
  | any2
  deriving DecidableEq, Repr

/-- Where a label goes with the next character. -/
inductive NumberMove where
  | goto (state : NumberState)
  | done
  | error
  deriving DecidableEq, Repr

/-- The converters, by the token type that `scan_number` keeps. -/
inductive NumberType where
  | unsigned
  | integer
  | float
  deriving DecidableEq, Repr

/-- A decimal digit. -/
def isDecimal (b : UInt8) : Bool := 0x30 ≤ b && b ≤ 0x39

/-- The letter in front of an exponent. -/
def isExponent (b : UInt8) : Bool := b == 0x65 || b == 0x45

/-- The `switch` behind a label. -/
def NumberState.move (b : UInt8) : NumberState → NumberMove
  | init => if b = 0x2D then .goto minus else if b = 0x30 then .goto zero else .goto any1
  | minus => if b = 0x30 then .goto zero else if isDecimal b then .goto any1 else .error
  | zero =>
      if b = 0x2E then .goto decimal1 else if isExponent b then .goto exponent else .done
  | any1 =>
      if isDecimal b then .goto any1
      else if b = 0x2E then .goto decimal1
      else if isExponent b then .goto exponent
      else .done
  | decimal1 => if isDecimal b then .goto decimal2 else .error
  | decimal2 =>
      if isDecimal b then .goto decimal2 else if isExponent b then .goto exponent else .done
  | exponent =>
      if b = 0x2B ∨ b = 0x2D then .goto sign else if isDecimal b then .goto any2 else .error
  | sign => if isDecimal b then .goto any2 else .error
  | any2 => if isDecimal b then .goto any2 else .done

/-- A label at which the number may end. -/
def NumberState.final : NumberState → Bool
  | zero | any1 | decimal2 | any2 => true
  | init | minus | decimal1 | exponent | sign => false

/-- What a label makes of the token type. -/
def NumberState.type (type : NumberType) : NumberState → NumberType
  | minus => .integer
  | decimal1 | exponent => .float
  | init | zero | any1 | decimal2 | sign | any2 => type

/-- The labels of `scan_number` in turn. The character behind the number is left in the
input. -/
def scanDigits : NumberState → NumberType → Bytes → Bytes → Option (NumberType × Bytes × Bytes)
  | state, type, token, [] => if state.final then some (type, token, []) else none
  | state, type, token, b :: rest =>
      match state.move b with
      | .goto next => scanDigits next (next.type type) (token ++ [b]) rest
      | .done => some (type, token, b :: rest)
      | .error => none

/-- `strtoull` on decimal digits. -/
def strtoull (text : Bytes) : Nat := text.foldl (fun n b => 10 * n + (b.toNat - 48)) 0

/-- The conversions behind `scan_number_done`. -/
def convert (strtod : Bytes → Option Rat) (type : NumberType) (token : Bytes) : Token :=
  match type with
  | .unsigned =>
      if strtoull token < 2 ^ 64 then .valueUnsigned (strtoull token)
      else .valueFloat (strtod token)
  | .integer =>
      -- behind the sign
      if strtoull (token.drop 1) ≤ 2 ^ 63 then .valueInteger (-strtoull (token.drop 1))
      else .valueFloat (strtod token)
  | .float => .valueFloat (strtod token)

/-- `scan_number`. -/
def scanNumber (strtod : Bytes → Option Rat) (input : Bytes) : Token × Bytes :=
  match scanDigits .init .unsigned [] input with
  | some (type, token, rest) => (convert strtod type token, rest)
  | none => (.parseError, [])

/-! ## Tokens -/

/-- The structural characters. -/
def structural : List (UInt8 × Token) :=
  [(0x5B, .beginArray), (0x5D, .endArray), (0x7B, .beginObject), (0x7D, .endObject),
    (0x3A, .nameSeparator), (0x2C, .valueSeparator)]

/-- The literals by their first letter: what has to follow it, and the token. -/
def literals : List (UInt8 × Bytes × Token) :=
  [(0x74, ascii "rue", .literalTrue), (0x66, ascii "alse", .literalFalse),
    (0x6E, ascii "ull", .literalNull)]

/-- `scan_literal`, behind its first letter. -/
def scanLiteral (text : Bytes) (token : Token) (rest : Bytes) : Token × Bytes :=
  if text.isPrefixOf rest then (token, rest.drop text.length) else (.parseError, [])

/-- The characters that `skip_whitespace` reads over. -/
def isSpace (b : UInt8) : Bool := b == 0x20 || b == 0x09 || b == 0x0A || b == 0x0D

/-- `skip_bom`: a byte order mark that has begun must be whole. -/
def skipBom (input : Bytes) : Option Bytes :=
  if [0xEF].isPrefixOf input then
    if [0xEF, 0xBB, 0xBF].isPrefixOf input then some (input.drop 3) else none
  else some input

/-- `scan`, after white space. -/
def scanToken (strtod : Bytes → Option Rat) : Bytes → Token × Bytes
  | [] => (.endOfInput, [])
  | b :: rest =>
      match structural.lookup b, literals.lookup b with
      | some t, _ => (t, rest)
      | none, some (text, t) => scanLiteral text t rest
      | none, none =>
          if b = 0x22 then
            match scanString (rest.length + 1) [] rest with
            | some (s, rest) => (.valueString s, rest)
            | none => (.parseError, [])
          else if b = 0x2D ∨ isDecimal b then scanNumber strtod (b :: rest)
          else if b = 0x00 then (.endOfInput, rest)
          else (.parseError, [])

/-- `scan`, after the byte order mark. -/
def scan (strtod : Bytes → Option Rat) (input : Bytes) : Token × Bytes :=
  scanToken strtod (input.dropWhile isSpace)

/-- A token behind which the parser asks for no other. -/
def isLast (t : Token) : Bool := t = .parseError ∨ t = .endOfInput

/-- The tokens of the input up to the one that ends it. -/
def tokenize (strtod : Bytes → Option Rat) : Nat → Bytes → List Token
  | 0, _ => []
  | fuel + 1, input =>
      let (t, rest) := scan strtod input
      if isLast t then [t] else t :: tokenize strtod fuel rest

/-- All tokens of the input. Each takes a byte at least. -/
def tokens (strtod : Bytes → Option Rat) (input : Bytes) : List Token :=
  tokenize strtod (input.length + 1) input

end Lexer

end AsioServer.Infra
