import CavityRepair.Document.Number
import CavityRepair.Text.Hex
/-!
# Writing JSON text

Documents are written without blanks. In strings quotes, backslashes and control characters are
escaped and all other characters stand for themselves.
-/
namespace CavityRepair.Document

/-- A character inside a string. -/
def escape (c : Char) : List Char :=
  if c = '"' then ['\\', '"']
  else if c = '\\' then ['\\', '\\']
  else if c = '\x08' then ['\\', 'b']
  else if c = '\x0c' then ['\\', 'f']
  else if c = '\n' then ['\\', 'n']
  else if c = '\r' then ['\\', 'r']
  else if c = '\t' then ['\\', 't']
  else if c.toNat < 0x20 then
    let digits := hexText c.toNat
    ['\\', 'u'] ++ List.replicate (4 - digits.length) '0' ++ digits
  else [c]

/-- A string with its quotes. -/
def quoted (s : String) : String := "\"" ++ .ofList (s.toList.flatMap escape) ++ "\""

mutual

/-- The text of a document. -/
def write : Document → String
  | .null => "null"
  | .bool true => "true"
  | .bool false => "false"
  | .integer n => toString n
  | .float x => floatLiteral x
  | .string s => quoted s
  | .array items => "[" ++ writeItems items ++ "]"
  | .object fields => "\x7b" ++ writeFields fields ++ "\x7d"

/-- The items of an array with commas between them. -/
def writeItems : List Document → String
  | [] => ""
  | [item] => write item
  | item :: items => write item ++ "," ++ writeItems items

/-- The fields of an object with commas between them. -/
def writeFields : List (String × Document) → String
  | [] => ""
  | [(name, value)] => quoted name ++ ":" ++ write value
  | (name, value) :: fields => quoted name ++ ":" ++ write value ++ "," ++ writeFields fields

end

end CavityRepair.Document
