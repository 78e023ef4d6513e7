import CavityRepair.Document.Number
import CavityRepair.Document.Token
/-!
# Reading JSON text

A document is read off its tokens from left to right. Arrays and objects that are not closed yet lie
on a stack, and `Reader` holds besides it what may come next. `Reader.step` takes one token.
-/
namespace CavityRepair.Document

/-- An array or object that is not closed yet. What it holds so far stands in reverse order. -/
inductive Frame where
  | array (items : List Document)
  /-- An object with a field whose value is to come. -/
  | object (fields : List (String × Document)) (name : String)

/-- What is to come next, with the frames around it. -/
inductive Reader where
  /-- A value, or the end of an array without items. -/
  | value (atStart : Bool) (stack : List Frame)
  /-- The name of a field, or the end of an object without fields. -/
  | name (fields : List (String × Document)) (atStart : Bool) (stack : List Frame)
  /-- The colon behind a name. -/
  | colon (fields : List (String × Document)) (name : String) (stack : List Frame)
  /-- What may stand behind a value. -/
  | behind (value : Document) (stack : List Frame)

/-- The value that a word stands for. -/
def word? (letters : List Char) : Option Document :=
  if letters = "null".toList then some .null
  else if letters = "true".toList then some (.bool true)
  else if letters = "false".toList then some (.bool false)
  else number? letters

/-- Takes a token. -/
def Reader.step : Reader → Token → Option Reader
  | .value _ stack, .openArray => some (.value true (.array [] :: stack))
  | .value _ stack, .openObject => some (.name [] true stack)
  | .value _ stack, .word letters => (word? letters).map (.behind · stack)
  | .value _ stack, .string s => some (.behind (.string s) stack)
  | .value true (.array [] :: stack), .closeArray => some (.behind (.array []) stack)
  | .name fields _ stack, .string key => some (.colon fields key stack)
  | .name [] true stack, .closeObject => some (.behind (.object []) stack)
  | .colon fields key stack, .colon => some (.value false (.object fields key :: stack))
  | .behind d (.array items :: stack), .comma => some (.value false (.array (d :: items) :: stack))
  | .behind d (.array items :: stack), .closeArray =>
    some (.behind (.array (d :: items).reverse) stack)
  | .behind d (.object fields key :: stack), .comma => some (.name ((key, d) :: fields) false stack)
  | .behind d (.object fields key :: stack), .closeObject =>
    some (.behind (.object ((key, d) :: fields).reverse) stack)
  | _, _ => none

/-- The document that the tokens complete. -/
def Reader.run (reader : Reader) : List Token → Option Document
  | [] =>
    match reader with
    | .behind d [] => some d
    | _ => none
  | token :: rest => do (← reader.step token).run rest

/-- The document that a text holds. -/
def read? (text : String) : Option Document := do
  (Reader.value false []).run (← tokens? text.toList)

end CavityRepair.Document
