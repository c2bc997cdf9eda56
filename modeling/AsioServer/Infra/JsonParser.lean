/-
AsioServer.Infra.JsonParser — the tokens of a JSON text as a value.

Translated from `class parser` (`sax_parse_internal`, `parse`) and
`class json_sax_dom_parser` in `infra/util/json.hpp`.

The parser is a loop with two places: it has just read the token that begins a
value, or it has just finished a value (`skip_to_state_evaluation`). A frame of
the stack is an array or object that is open: an entry of `states`, and what
`ref_stack` points to. The source enters a value into its parent before the
value is complete; here it is entered when it is finished, and nobody looks at
it in between. An exception is `none`.
-/
import AsioServer.Lib.OrderedMap
import AsioServer.Infra.JsonLexer

namespace AsioServer.Infra

open AsioServer.Core AsioServer.Lib

/-- `operator[]` of the `std::map` of an object, and the assignment to what it refers to. -/
def assignKey (key : Bytes) (j : Json) (fields : List (Bytes × Json)) : List (Bytes × Json) :=
  OrderedMap.assign key j fields

/-! ## The loop -/

/-- An open array with its items, or an open object with its entries and the key that waits
for its value (`object_element`). -/
inductive OpenValue where
  | array (items : List Json)
  | object (fields : List (Bytes × Json)) (key : Bytes)

/-- Where the loop stands. -/
inductive Place where
  /-- At the top, with `last_token`. -/
  | token (t : Token)
  /-- After a value. -/
  | value (j : Json)

/-- The loop with the tokens that are still to come. -/
structure Loop where
  place : Place
  stack : List OpenValue
  input : List Token

/-- What one round of the loop does. -/
inductive Round where
  | next (loop : Loop)
  /-- The value is complete. -/
  | done (j : Json) (input : List Token)
  | error

/-- The value of a token that is one. -/
def scalar : Token → Option Json
  | .literalTrue => some (.boolean true)
  | .literalFalse => some (.boolean false)
  | .literalNull => some .null
  | .valueString s => some (.string s)
  | .valueUnsigned n => some (.integer n)
  | .valueInteger i => some (.integer i)
  -- `out_of_range` 406 when it is not finite
  | .valueFloat q => q.map .float
  | _ => none

/-- The `switch` on `last_token`. -/
def onToken (stack : List OpenValue) : Token → List Token → Round
  | .beginObject, .endObject :: ts => .next ⟨.value (.object []), stack, ts⟩
  | .beginObject, .valueString key :: .nameSeparator :: t :: ts =>
      .next ⟨.token t, .object [] key :: stack, ts⟩
  | .beginObject, _ => .error
  | .beginArray, .endArray :: ts => .next ⟨.value (.array []), stack, ts⟩
  | .beginArray, t :: ts => .next ⟨.token t, .array [] :: stack, ts⟩
  | .beginArray, [] => .error
  | t, ts =>
      match scalar t with
      | some j => .next ⟨.value j, stack, ts⟩
      | none => .error

/-- After a value: the end, or what `states.back()` says. -/
def onValue (j : Json) : List OpenValue → List Token → Round
  | [], ts => .done j ts
  | .array items :: stack, .valueSeparator :: t :: ts =>
      .next ⟨.token t, .array (items ++ [j]) :: stack, ts⟩
  | .array items :: stack, .endArray :: ts => .next ⟨.value (.array (items ++ [j])), stack, ts⟩
  | .array _ :: _, _ => .error
  | .object fields key :: stack,
      .valueSeparator :: .valueString key' :: .nameSeparator :: t :: ts =>
      .next ⟨.token t, .object (assignKey key j fields) key' :: stack, ts⟩
  | .object fields key :: stack, .endObject :: ts =>
      .next ⟨.value (.object (assignKey key j fields)), stack, ts⟩
  | .object _ _ :: _, _ => .error

/-- One round of the loop in `sax_parse_internal`. -/
def Loop.round (loop : Loop) : Round :=
  match loop.place with
  | .token t => onToken loop.stack t loop.input
  | .value j => onValue j loop.stack loop.input

/-- `sax_parse_internal`: the value, and the tokens behind it. -/
def saxParse : Nat → Loop → Option (Json × List Token)
  | 0, _ => none
  | fuel + 1, loop =>
      match loop.round with
      | .next loop => saxParse fuel loop
      | .done j input => some (j, input)
      | .error => none

/-- Rounds enough for the tokens that are to come. -/
def Loop.fuel (loop : Loop) : Nat := 2 * loop.input.length + 2

/-! ## parse -/

/-- `parser::parse` on the tokens of a text. `strict` asks that nothing stands behind the
value. -/
def parseTokens (strict : Bool) : List Token → Option Json
  | [] => none
  | t :: ts =>
      let loop : Loop := ⟨.token t, [], ts⟩
      (saxParse loop.fuel loop).bind fun (j, rest) =>
        if strict ∧ rest.head? ≠ some .endOfInput then none else some j

/-- `nlohmann::json::parse`, and `operator>>` when it is not strict. -/
def parse (strtod : Bytes → Option Rat) (strict : Bool) (text : Bytes) : Option Json :=
  (Lexer.skipBom text).bind fun input => parseTokens strict (Lexer.tokens strtod input)

end AsioServer.Infra
